/-
Quoted text, as it appears in error messages and displays.

A text is put between double quotes; quotes and backslashes get a backslash, the four common controls their short
form, every other character without a visible form its code point in braces, and all else stands for itself.
-/
import MessageBus.Text.Printable

namespace MessageBus.Text

/-- lower-case hexadecimal digits without leading zeros -/
def hex (n : Nat) : List Char := Nat.toDigits 16 n

/-- lower-case hexadecimal digits, padded on the left to `width` -/
def hexPadded (width n : Nat) : List Char :=
  let digits := hex n
  List.replicate (width - digits.length) '0' ++ digits

/-- how one character is written between the quotes -/
def quotedChar (c : Char) : List Char :=
  if c = '"' then ['\\', '"']
  else if c = '\\' then ['\\', '\\']
  else if c = '\t' then ['\\', 't']
  else if c = '\r' then ['\\', 'r']
  else if c = '\n' then ['\\', 'n']
  else if c = '\x00' then ['\\', '0']
  else if isPrintable c then [c]
  else ['\\', 'u', '\x7b'] ++ hex c.toNat ++ ['\x7d']

/-- a text in double quotes -/
def quoted (text : String) : String :=
  String.ofList ('"' :: text.toList.flatMap quotedChar ++ ['"'])

end MessageBus.Text
