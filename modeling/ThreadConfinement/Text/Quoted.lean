import ThreadConfinement.Text.Graphic

/-!
Quoted text, for messages in which the exact characters of a text matter.

The text stands between double quotes.  Five characters and the backslash have
short escapes, every other character that cannot be shown on its own is written
by its code point, and all else stands as it is.
-/

namespace ThreadConfinement.Text

/-- The hexadecimal digits of a number, lower case and without leading zeros. -/
def hexDigits (n : Nat) : List Char :=
  Nat.toDigits 16 n

/-- How one character is written between quotes. -/
def quoteChar (c : Char) : List Char :=
  match c with
  | '\x00' => ['\\', '0']
  | '\t' => ['\\', 't']
  | '\r' => ['\\', 'r']
  | '\n' => ['\\', 'n']
  | '"' => ['\\', '"']
  | '\\' => ['\\', '\\']
  | c =>
    if standsAlone c then [c] else ['\\', 'u', '\x7b'] ++
      hexDigits c.toNat ++ ['\x7d']

/-- The text between double quotes. -/
def quoted (s : String) : String :=
  String.ofList ('"' :: s.toList.flatMap quoteChar ++ ['"'])

end ThreadConfinement.Text
