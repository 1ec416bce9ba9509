import ScriptLexer.Text.Utf8

/-!
# Input of the JSON reader

JSON is read from symbols: the characters of a text, or of the bytes of a file, whose bytes that
belong to no character stay visible as stray bytes. The first problem met from left to right is
the one reported.
-/

namespace ScriptLexer.Json

/-- What is wrong with a JSON document. -/
inductive Problem where
  /-- The input ends inside a value. -/
  | truncated
  /-- The input is not JSON. -/
  | malformed
  /-- A value has the wrong type, or a field occurs twice. -/
  | mistyped
  /-- The input cannot be read. -/
  | unreadable
  deriving DecidableEq, Repr

/-- Symbols still to be read. -/
abbrev Input := List Symbol

def ofText (t : Text) : Input := t.map .char

@[simp] theorem ofText_nil : ofText [] = [] := rfl

@[simp] theorem ofText_cons (c : Char) (t : Text) : ofText (c :: t) = .char c :: ofText t := rfl

@[simp] theorem ofText_append (s t : Text) : ofText (s ++ t) = ofText s ++ ofText t :=
  List.map_append

/-- The number of bytes that the symbols were read from. -/
def byteCount : Input → Nat
  | [] => 0
  | x :: rest => x.size + byteCount rest

/-- Whether a symbol may stand between tokens. -/
def isBlank : Symbol → Bool
  | .char c => c == ' ' || c == '\t' || c == '\n' || c == '\r'
  | .stray _ => false

/-- The input after the blanks at its start. -/
def skipBlank (s : Input) : Input := s.dropWhile isBlank

theorem skipBlank_length (s : Input) : (skipBlank s).length ≤ s.length :=
  (List.dropWhile_sublist isBlank).length_le

/-- The input after the given characters, which must come next. -/
def expect : Text → Input → Except Problem Input
  | [], s => .ok s
  | _ :: _, [] => .error .truncated
  | c :: cs, x :: s => if x = .char c then expect cs s else .error .malformed

theorem expect_length {t : Text} {s rest : Input} (h : expect t s = .ok rest) :
    rest.length ≤ s.length := by
  induction t generalizing s with
  | nil => cases h; exact Nat.le_refl _
  | cons c t ih =>
    cases s with
    | nil => simp [expect] at h
    | cons x s =>
      simp only [expect] at h
      split at h
      · exact Nat.le_succ_of_le (ih h)
      · simp at h

end ScriptLexer.Json
