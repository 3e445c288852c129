/-
  Text as it is shown in messages: between double quotes, with the characters that would break a
  line or end the quotation escaped.  Quotes and backslashes get a backslash, the common line and
  column characters their letter, every other control character its code point in hexadecimal;
  all else stands as it is.
-/

namespace AtModem.Quoted

/-- Whether a character is one of the two ranges that are never shown as they are. -/
def isControl (c : Char) : Bool := c.toNat < 0x20 || (0x7F ≤ c.toNat && c.toNat < 0xA0)

/-- How one character is shown. -/
def escape (c : Char) : List Char :=
  if c = '"' then ['\\', '"']
  else if c = '\\' then ['\\', '\\']
  else if c = '\n' then ['\\', 'n']
  else if c = '\r' then ['\\', 'r']
  else if c = '\t' then ['\\', 't']
  else if c.toNat = 0 then ['\\', '0']
  else if isControl c then ['\\', 'u', '\x7b'] ++ Nat.toDigits 16 c.toNat ++ ['\x7d']
  else [c]

/-- The quoted form of a text. -/
def quote (s : String) : String :=
  String.ofList ('"' :: s.toList.flatMap escape ++ ['"'])

/-- Several quoted texts, as a bracketed list. -/
def quoteAll (ss : List String) : String :=
  "[" ++ String.intercalate ", " (ss.map quote) ++ "]"

end AtModem.Quoted
