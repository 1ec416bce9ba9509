import ScriptLexer.Text.Basic

/-!
# Lines and columns

A `Position` is a line and a column, both counted from one. `Position.of` finds the position of a
character offset by walking over the characters before it.

A line ends at a line feed, at a carriage return, or at the two together. The walk sees only the
characters before the offset, so a carriage return that is the last of them ends its line, whatever
stands after it in the text.

* `Position.advance_append`: walking over two texts is walking over the first, then the second,
  unless the cut falls inside a carriage return and line feed.
-/

namespace ScriptLexer

/-- A line and a column, both counted from one. -/
structure Position where
  line : Nat
  column : Nat
  deriving DecidableEq, Repr

namespace Position

/-- The first character of a text. -/
def first : Position := ⟨1, 1⟩

/-- The position after the character `c`, which is followed by `next`. A carriage return before a
line feed leaves the position alone: the line feed ends the line. -/
def past (p : Position) (c : Char) (next : Option Char) : Position :=
  if c = '\r' ∧ next = some '\n' then p
  else if c = '\r' ∨ c = '\n' then ⟨p.line + 1, 1⟩
  else ⟨p.line, p.column + 1⟩

/-- The position after a text that starts at `p`. -/
def advance (p : Position) : Text → Position
  | [] => p
  | c :: rest => (p.past c rest.head?).advance rest

/-- The position of a character offset. An offset past the end is the end. -/
def of (t : Text) (offset : Nat) : Position := first.advance (t.take offset)

/-! ## Laws -/

/-- A cut between a carriage return and a line feed. -/
def SplitsLineEnd (s t : Text) : Prop := s.getLast? = some '\r' ∧ t.head? = some '\n'

theorem advance_append {s t : Text} (h : ¬ SplitsLineEnd s t) (p : Position) :
    p.advance (s ++ t) = (p.advance s).advance t := by
  induction s generalizing p with
  | nil => rfl
  | cons c s ih =>
    cases s with
    | nil =>
      simp only [List.singleton_append, advance, List.head?_nil]
      have : p.past c t.head? = p.past c none := by
        simp only [past]
        by_cases hc : c = '\r' <;> simp_all [SplitsLineEnd]
      rw [this]
    | cons d s => exact ih (by simpa [SplitsLineEnd] using h) _

theorem of_eq_of_length_le {t : Text} {offset : Nat} (h : t.length ≤ offset) :
    of t offset = first.advance t := by
  rw [of, List.take_of_length_le h]

end Position

end ScriptLexer
