/-!
# Texts

A text is its list of characters: offsets and lengths count characters, never bytes.

* `isWhiteSpace` is the Unicode property White_Space; `Text.isBlank` asks it of every character.
* `Text.lowerAscii` folds the case of ASCII letters only, and `Text.sameIgnoringCase` compares
  up to it.
-/

namespace ScriptLexer

/-- A text, as the list of its characters. -/
abbrev Text := List Char

/-- The characters with the Unicode property White_Space. -/
def isWhiteSpace (c : Char) : Bool :=
  let n := c.toNat
  (0x09 ≤ n && n ≤ 0x0D) || n == 0x20 || n == 0x85 || n == 0xA0 || n == 0x1680 ||
    (0x2000 ≤ n && n ≤ 0x200A) || n == 0x2028 || n == 0x2029 || n == 0x202F || n == 0x205F ||
    n == 0x3000

/-- The lower-case form of an ASCII capital; any other character is itself. -/
def lowerAscii (c : Char) : Char :=
  if 0x41 ≤ c.toNat && c.toNat ≤ 0x5A then Char.ofNat (c.toNat + 0x20) else c

namespace Text

/-- Empty, or white space throughout. -/
def isBlank (t : Text) : Bool := t.all isWhiteSpace

/-- Equality up to the case of ASCII letters. -/
def sameIgnoringCase (s t : Text) : Bool := s.map lowerAscii == t.map lowerAscii

/-- The texts in order, with `separator` between neighbours. -/
def joined (separator : Text) (ts : List Text) : Text := (ts.intersperse separator).flatten

/-- The decimal digits of a number. -/
def ofNat (n : Nat) : Text := Nat.toDigits 10 n

/-! ## Small laws -/

theorem sameIgnoringCase_iff {s t : Text} :
    sameIgnoringCase s t = true ↔ s.map lowerAscii = t.map lowerAscii :=
  beq_iff_eq

@[simp] theorem sameIgnoringCase_refl (t : Text) : sameIgnoringCase t t = true :=
  sameIgnoringCase_iff.2 rfl

theorem length_eq_of_sameIgnoringCase {s t : Text} (h : sameIgnoringCase s t = true) :
    s.length = t.length := by
  simpa using congrArg List.length (sameIgnoringCase_iff.1 h)

end Text

end ScriptLexer
