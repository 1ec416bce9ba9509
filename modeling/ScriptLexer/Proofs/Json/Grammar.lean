import ScriptLexer.Json.Value

/-!
# JSON as it is written

The grammar of JSON, as relations on texts that know of no reader.

**Strings** come in two kinds. `Spells t s` says that `s`, between quotes, is a way to write the text
`t`: each character stands for itself, or is written as an escape with a letter, with its code point,
or with the two halves of a surrogate pair. `IsBody s` says only that `s` may stand between quotes; a
half of a pair may then stand alone, and what the string would mean is left open.

**Numbers** (`IsNumber`) are digits with an optional sign, fraction and exponent, of any length.

**Values** (`IsJson .value`) are literals, numbers, strings, and brackets of both kinds around items,
nested to any depth. An item is a value in a list, and a key with a value in an object. Blanks may
stand around each item and on both sides of a colon.
-/

namespace ScriptLexer.Json

/-- Blanks, as many as there may be between tokens. -/
def IsBlanks (w : Text) : Prop := ∀ c ∈ w, c ∈ [' ', '\t', '\n', '\r']

/-! ## Strings -/

/-- A hexadecimal digit, with a letter of either case. -/
def IsHexDigit (d : Nat) (c : Char) : Prop :=
  d < 16 ∧ (c = Nat.digitChar d ∨ c = (Nat.digitChar d).toUpper)

/-- The four hexadecimal digits of a number. -/
inductive IsHex : Nat → Text → Prop where
  | digits {a b c d : Nat} {w x y z : Char} : IsHexDigit a w → IsHexDigit b x → IsHexDigit c y →
      IsHexDigit d z → IsHex (((a * 16 + b) * 16 + c) * 16 + d) [w, x, y, z]

/-- The letters that may follow a backslash, with what they stand for. -/
def letterEscapes : List (Char × Char) :=
  [('"', '"'), ('\\', '\\'), ('/', '/'), ('b', '\x08'), ('f', '\x0c'), ('n', '\n'), ('r', '\r'),
    ('t', '\t')]

/-- A character that stands for itself in a string. -/
def IsPlain (c : Char) : Prop := 0x20 ≤ c.toNat ∧ c ≠ '"' ∧ c ≠ '\\'

/-- How a character may be written in a string. -/
inductive SpellsChar (c : Char) : Text → Prop where
  | plain : IsPlain c → SpellsChar c [c]
  | letter {e : Char} : (e, c) ∈ letterEscapes → SpellsChar c ['\\', e]
  | code {hex : Text} : IsHex c.toNat hex → SpellsChar c ('\\' :: 'u' :: hex)
  | pair {high low : Text} : 0x10000 ≤ c.toNat →
      IsHex (0xD800 + (c.toNat - 0x10000) / 0x400) high →
      IsHex (0xDC00 + (c.toNat - 0x10000) % 0x400) low →
      SpellsChar c ('\\' :: 'u' :: high ++ '\\' :: 'u' :: low)

/-- How a text may be written in a string, between the quotes. -/
inductive Spells : Text → Text → Prop where
  | nil : Spells [] []
  | cons {c : Char} {t u s : Text} : SpellsChar c u → Spells t s → Spells (c :: t) (u ++ s)

/-- A piece of a string, whatever it stands for. -/
inductive IsPiece : Text → Prop where
  | plain {c : Char} : IsPlain c → IsPiece [c]
  | letter {e c : Char} : (e, c) ∈ letterEscapes → IsPiece ['\\', e]
  | code {n : Nat} {hex : Text} : IsHex n hex → IsPiece ('\\' :: 'u' :: hex)

/-- What may stand between the quotes of a string. -/
inductive IsBody : Text → Prop where
  | nil : IsBody []
  | cons {u s : Text} : IsPiece u → IsBody s → IsBody (u ++ s)

/-! ## Numbers -/

/-- Decimal digits, at least one. -/
def IsDigits (ds : Text) : Prop := ds ≠ [] ∧ ∀ c ∈ ds, '0' ≤ c ∧ c ≤ '9'

/-- A number: a sign, digits without a zero in front, a fraction and an exponent. -/
structure IsNumber (minus whole fraction exponent : Text) : Prop where
  minus : minus = [] ∨ minus = ['-']
  whole : IsDigits whole ∧ (whole.head? = some '0' → whole = ['0'])
  fraction : fraction = [] ∨ ∃ ds, IsDigits ds ∧ fraction = '.' :: ds
  exponent : exponent = [] ∨ ∃ e sign ds, (e = 'e' ∨ e = 'E') ∧
    (sign = [] ∨ sign = ['+'] ∨ sign = ['-']) ∧ IsDigits ds ∧ exponent = e :: sign ++ ds

/-! ## Values -/

def Bracket.opening : Bracket → Char
  | list => '['
  | object => '\x7b'

/-- A value, an item between brackets, or all items between brackets. -/
inductive Form where
  | value
  | item (bracket : Bracket)
  | items (bracket : Bracket)
  deriving DecidableEq, Repr

/-- A text of the given form. -/
inductive IsJson : Form → Text → Prop where
  | literal {t : Text} : t ∈ ["null".toList, "true".toList, "false".toList] → IsJson .value t
  | number {minus whole fraction exponent : Text} : IsNumber minus whole fraction exponent →
      IsJson .value (minus ++ whole ++ fraction ++ exponent)
  | string {s : Text} : IsBody s → IsJson .value ('"' :: s ++ ['"'])
  | empty (bracket : Bracket) {w : Text} : IsBlanks w →
      IsJson .value (bracket.opening :: w ++ [bracket.closing])
  | bracketed (bracket : Bracket) {s : Text} : IsJson (.items bracket) s →
      IsJson .value (bracket.opening :: s ++ [bracket.closing])
  | element {w v w' : Text} : IsBlanks w → IsJson .value v → IsBlanks w' →
      IsJson (.item .list) (w ++ v ++ w')
  | member {w key w₁ w₂ v w' : Text} : IsBlanks w → IsBody key → IsBlanks w₁ → IsBlanks w₂ →
      IsJson .value v → IsBlanks w' →
      IsJson (.item .object) (w ++ '"' :: key ++ '"' :: w₁ ++ ':' :: w₂ ++ v ++ w')
  | single {bracket : Bracket} {s : Text} : IsJson (.item bracket) s → IsJson (.items bracket) s
  | more {bracket : Bracket} {s r : Text} : IsJson (.item bracket) s → IsJson (.items bracket) r →
      IsJson (.items bracket) (s ++ ',' :: r)

end ScriptLexer.Json
