import ParallelGzip.Text.Printable

set_option autoImplicit false

/-! # Quoted text: a string inside a message

A quoted string stands between double quotes. The double quote, the backslash, the line feed, the
carriage return, the tab and NUL have two-character escapes; other characters that cannot be shown
are written with their hexadecimal code point in braces. -/

namespace ParallelGzip

namespace Quoted

/-- The digits of `n` in lower-case hexadecimal. -/
def hex (n : Nat) : List Char := Nat.toDigits 16 n

/-- How one character is written between the quotes. -/
def encodeChar (c : Char) : List Char :=
  if c = '"' then ['\\', '"']
  else if c = '\\' then ['\\', '\\']
  else if c = '\n' then ['\\', 'n']
  else if c = '\r' then ['\\', 'r']
  else if c = '\t' then ['\\', 't']
  else if c = '\x00' then ['\\', '0']
  else if isPrintable c then [c]
  else ['\\', 'u', '\x7b'] ++ hex c.toNat ++ ['\x7d']

/-- The text between the quotes. -/
def encode (text : List Char) : List Char := text.flatMap encodeChar

end Quoted

/-- `text` between double quotes, with escapes. -/
def quoted (text : String) : String :=
  String.ofList (['"'] ++ Quoted.encode text.toList ++ ['"'])

end ParallelGzip
