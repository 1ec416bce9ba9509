import ScriptLexer.Text.Basic
import ScriptLexer.Text.Printable

/-!
# Escaped texts

How messages show a character or a text that may not be printable: between quotes, with a
backslash before the surrounding quote and before a backslash, short escapes for NUL, tab, line
feed and carriage return, and the code point in hexadecimal for whatever else is not printable.
-/

namespace ScriptLexer.Escaped

/-- A character as it stands between two `quote` characters. -/
def escape (quote c : Char) : Text :=
  match c with
  | '\x00' => ['\\', '0']
  | '\t' => ['\\', 't']
  | '\n' => ['\\', 'n']
  | '\r' => ['\\', 'r']
  | '\\' => ['\\', '\\']
  | c =>
    if c = quote then ['\\', c]
    else if isPrintable c then [c]
    else "\\u\x7b".toList ++ Nat.toDigits 16 c.toNat ++ ['\x7d']

/-- A character between single quotes. -/
def character (c : Char) : Text := '\'' :: escape '\'' c ++ ['\'']

/-- A text between double quotes. -/
def text (t : Text) : Text := '"' :: t.flatMap (escape '"') ++ ['"']

end ScriptLexer.Escaped
