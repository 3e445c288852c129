/-
  NMEA sentences.

  The receiver's output is one sentence a line, each opened by a talker such as `$GP`.  The talker is
  what announces it; `Sentence.read` takes the rest of the line and puts the two together.  Storage is
  limited, with one place for a closing zero byte, so the rest of an overlong line is dropped.
-/
import AtModem.Stream.Line

namespace AtModem
namespace Gnss

/-- The storage of a sentence. -/
def sentenceCapacity : Nat := 96

/-- A sentence with its talker, as one text without a line end. -/
structure Sentence where
  text : String
  deriving DecidableEq, Repr

namespace Sentence

/-- Talker and kind together, such as `GPGGA`: what stands before the first comma, without the
    dollar sign. -/
def kind (s : Sentence) : String :=
  let body := match s.text.toList with
    | '$' :: rest => rest
    | cs => cs
  String.ofList (body.takeWhile (· ≠ ','))

/-- How many bytes of the line are kept after the talker. -/
def roomAfter (talker : String) : Nat := sentenceCapacity - (1 + (Utf8.encode talker).length)

/-- Reads the rest of a sentence whose talker was its announcement.  The line is read to its end
    even if not all of it is kept. -/
def read {σ : Type} (talker : String) : StreamM σ Sentence := do
  return ⟨talker ++ (← Stream.readLine (roomAfter talker))⟩

end Sentence
end Gnss

theorem Stream.KeptByReading.readSentence {σ : Type} {R : Stream σ → Stream σ → Prop}
    (k : KeptByReading R) (talker : String) : Along R (Gnss.Sentence.read talker) :=
  k.bind (k.readLine _) fun _ => k.pure _

end AtModem
