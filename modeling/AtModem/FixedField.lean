/-
  Fields of fixed capacity, decoded from payloads with an announced length.

  The storage of a field is zeros at first; one cell of it stays free for a closing zero byte.  A payload
  that does not fit loses its head and keeps its tail.  That is no error: the field records the announced
  length, so a truncated value can be told from a whole one.
-/
import AtModem.Stream.Raw
import AtModem.Text.Quoted

namespace AtModem

/-- A field as it is stored: zeros at first, then the payload from the first cell on.  The announced
    length may be greater than what the cells can hold. -/
structure FixedField where
  /-- The cells of the storage, one of them for the closing zero byte. -/
  cells : Bytes
  /-- How many cells, from the first on, hold what is kept of the payload. -/
  used : Nat
  /-- The length that was announced. -/
  declared : Nat
  deriving DecidableEq, Repr

namespace FixedField

/-- How many bytes of a payload of `declared` bytes are kept. -/
def kept (capacity declared : Nat) : Nat := min declared (capacity - 1)

/-- A field of zeros, for a payload of an announced length. -/
def blank (capacity declared : Nat) : FixedField := ⟨List.replicate capacity 0, 0, declared⟩

/-- Puts bytes into the first cells. -/
def put (f : FixedField) (bs : Bytes) : FixedField :=
  { f with cells := bs ++ f.cells.drop bs.length, used := bs.length }

/-- The field of a payload that is at hand.  It is what a read of these bytes comes to, without a
    stream to read them from. -/
def ofBytes (capacity : Nat) (payload : Bytes) : FixedField :=
  (blank capacity payload.length).put
    (payload.drop (payload.length - kept capacity payload.length))

/-- Reads a payload of `declared` bytes: skips what does not fit, then reads what is kept.  The two
    parts are two reads, and each of them fails by its own length if its bytes do not come. -/
def read {σ : Type} (capacity declared : Nat) : StreamM σ FixedField := do
  let keep := kept capacity declared
  Stream.skip (declared - keep)
  let bytes ← Stream.readExact keep
  return (blank capacity declared).put bytes

/-- The number of cells, with the one that stays free.  It is decided when the field is made and no
    payload changes it. -/
def capacity (f : FixedField) : Nat := f.cells.length

/-- What is kept of the payload. -/
def payload (f : FixedField) : Bytes := f.cells.take f.used

/-- The payload and the cell behind it.  A field without any storage has not even that. -/
def bytesWithNul (f : FixedField) : Bytes :=
  if f.cells.isEmpty then [] else f.cells.take (f.used + 1)

/-- The kept part of the payload as text; bytes that are no text are shown as such. -/
def text (f : FixedField) : String := Utf8.decode f.payload

/-- Whether part of the payload was lost. -/
def isTruncated (f : FixedField) : Bool := f.used < f.declared

/-- The field in one line. -/
def describe (f : FixedField) : String :=
  "FixedField \x7b value: " ++ Quoted.quote f.text ++ ", declared: " ++ toString f.declared
    ++ " \x7d"

theorem kept_le (capacity declared : Nat) : kept capacity declared ≤ declared := Nat.min_le_left _ _

/-- What is left of a payload when its head is dropped is as long as what is to be kept. -/
theorem length_drop_sub_kept (capacity : Nat) (payload : Bytes) :
    (payload.drop (payload.length - kept capacity payload.length)).length =
      kept capacity payload.length := by
  rw [List.length_drop, Nat.sub_sub_self (kept_le _ _)]

/-- What is skipped is the rest, so that skipped and kept part together are the payload. -/
theorem length_take_sub_kept (capacity : Nat) (payload : Bytes) :
    (payload.take (payload.length - kept capacity payload.length)).length =
      payload.length - kept capacity payload.length := by
  rw [List.length_take, Nat.min_eq_left (Nat.sub_le _ _)]

end FixedField

/-- Reading a field is skipping its head and reading its tail. -/
theorem Stream.KeptByReading.readField {σ : Type} {R : Stream σ → Stream σ → Prop}
    (k : KeptByReading R) (capacity declared : Nat) :
    Along R (FixedField.read capacity declared) :=
  k.bind (k.skip _) fun _ => k.bind (k.readExact _) fun _ => k.pure _

end AtModem
