/-
  A device that keeps certificates.

  The store keeps data in named slots.  One command lists the names, one removes a slot, one announces an
  upload; whatever else is asked is answered by `OK`.  After an upload was announced, the bytes that come
  are taken as they are until there are as many as were announced.  A slot that is taken is not
  overwritten.  The store can be told to refuse the next upload, which it does when the bytes have
  arrived.
-/
import AtModem.Link
import Mathlib.Data.Finmap
import Mathlib.Data.Finset.Sort
import Mathlib.Data.List.DropRight
import Mathlib.Data.String.Basic

namespace AtModem

namespace CertStore

/-- What is kept under each name. -/
abbrev Slots := Finmap fun _ : String => Bytes

/-- An upload of which there are bytes to come. -/
structure Receiving where
  slot : String
  /-- How many bytes were announced. -/
  size : Nat
  /-- Those that have arrived. -/
  data : Bytes
  short : data.length < size

end CertStore

/-- The state of the device: its slots, whether it will refuse the next upload, and the upload it is
    in the middle of. -/
structure CertStore where
  slots : CertStore.Slots
  /-- Whether the next upload is refused. -/
  refusing : Bool
  receiving : Option CertStore.Receiving

namespace CertStore

/-- A store on which nothing has happened. -/
def ofSlots (slots : Slots) : CertStore := ⟨slots, false, none⟩

/-- Tells the store to refuse the next upload. -/
def refuseNext (s : CertStore) : CertStore := { s with refusing := true }

/-! ## What is asked for -/

/-- What a line asks of the store. -/
inductive Request where
  | list
  | remove (slot : String)
  /-- An upload; without a number of bytes if it was not given as one. -/
  | announce (slot : String) (size : Option Nat)
  | other

/-- A text without the quotes at its ends. -/
def unquote (text : List Char) : String :=
  String.ofList ((text.dropWhile (· = '"')).rdropWhile (· = '"'))

/-- A number of bytes: digits, perhaps with a plus sign before them, and less than 2 ^ 64. -/
def count? (text : List Char) : Option Nat :=
  let digits := (['+'].isPrefixOf? text).getD text
  let n := Nat.ofDigitChars 10 digits 0
  if digits ≠ [] ∧ digits.all Char.isDigit = true ∧ n < 2 ^ 64 then some n else none

/-- What stands behind the first comma, or no bytes at all. -/
def announced (args : List Char) : List Char :=
  if ',' ∈ args then (args.dropWhile (· ≠ ',')).drop 1 else ['0']

/-- A line is recognised by how it begins.  Of what follows, a name is taken without its quotes and
    a number only if it is one. -/
def Request.ofLine (line : String) : Request :=
  if line = "AT+CCERTLIST" then list
  else
    match "AT+CCERTDELE=".toList.isPrefixOf? line.toList with
    | some name => remove (unquote name)
    | none =>
      match "AT+CCERTDOWN=".toList.isPrefixOf? line.toList with
      | some args => announce (unquote (args.takeWhile (· ≠ ','))) (count? (announced args))
      | none => other

/-! ## What is answered -/

/-- The answer to what was done. -/
def okAnswer : Bytes := Utf8.encode "\r\nOK\r\n"

/-- The answer to what cannot be done. -/
def errorAnswer : Bytes := Utf8.encode "\r\nERROR\r\n"

/-- A name as it is listed. -/
def entry (name : String) : Bytes := Utf8.encode ("\r\n+CCERTLIST: \"" ++ name ++ "\"")

/-- The names of the slots that are taken, in order. -/
def names (s : CertStore) : List String := s.slots.keys.sort

/-- The answer to a listing: a line for each name, and `OK`. -/
def listing (s : CertStore) : Bytes := s.names.flatMap entry ++ Utf8.encode "\r\n\r\nOK\r\n"

/-- What the store does with a line, and what it answers.  An announcement of no bytes at all is
    refused, as is one for a slot that is taken. -/
def answer (s : CertStore) (line : Bytes) : CertStore × Reply :=
  match Request.ofLine (Utf8.decode line) with
  | .list => (s, .now s.listing)
  | .remove slot =>
    if slot ∈ s.slots then ({ s with slots := s.slots.erase slot }, .now okAnswer)
    else (s, .now errorAnswer)
  | .announce slot (some (n + 1)) =>
    if slot ∈ s.slots then (s, .now errorAnswer)
    else
      ({ s with receiving := some ⟨slot, n + 1, [], n.succ_pos⟩ }, .now (Utf8.encode "\r\n>"))
  | .announce _ _ => (s, .now errorAnswer)
  | .other => (s, .now okAnswer)

/-- All bytes of an upload have arrived: they are stored, or the upload is refused. -/
def finish (s : CertStore) (slot : String) (data : Bytes) : CertStore × Bytes :=
  if s.refusing then ({ s with receiving := none, refusing := false }, errorAnswer)
  else ({ s with receiving := none, slots := s.slots.insert slot data }, okAnswer)

/-- Takes a byte of the upload. -/
def take (s : CertStore) (b : UInt8) : CertStore × Reply :=
  match s.receiving with
  | none => (s, .now [])
  | some r =>
    let data := r.data ++ [b]
    if short : data.length < r.size then
      ({ s with receiving := some { r with data, short } }, .now [])
    else
      let (s, verdict) := s.finish r.slot data
      (s, .now verdict)

instance : Device CertStore where
  answer := answer
  takesRaw s := s.receiving.isSome
  take := take

end CertStore
end AtModem
