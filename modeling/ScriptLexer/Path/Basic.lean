import ScriptLexer.Path.Pieces

/-!
# Paths

A `Path` keeps the text it was written as. What it addresses is its list of components: pieces
that are empty or `.` do not count, except that a relative path may start from `.`, and every run
of separators at the start is the one root. `..` is kept as written.

Two spellings address the same file when their components are equal (`Path.sameAs`).
-/

namespace ScriptLexer

structure Path where
  text : Text
  deriving DecidableEq, Repr

/-- One step of a path. -/
inductive Component where
  /-- The root of the file system. -/
  | root
  /-- The `.` that a relative path starts from. -/
  | here
  /-- The enclosing folder. -/
  | up
  /-- An entry of a folder. -/
  | name (n : Text)
  deriving DecidableEq, Repr

namespace Path

/-- The component that a piece stands for, if any. -/
def component? : Text → Option Component
  | [] => none
  | ['.'] => none
  | ['.', '.'] => some .up
  | n => some (.name n)

/-- Splits the pieces of a path into what the path starts from and the pieces after it. -/
def anchored : List Text → Option Component × List Text
  | [] :: p :: ps => (some .root, p :: ps)
  | ['.'] :: ps => (some .here, ps)
  | ps => (none, ps)

/-- What the path starts from, if it says so. -/
def anchor (p : Path) : Option Component := (anchored (pieces p.text)).1

def body (p : Path) : List Text := (anchored (pieces p.text)).2

/-- What the path addresses. -/
def components (p : Path) : List Component := p.anchor.toList ++ p.body.filterMap component?

/-- Whether two paths address the same file. -/
def sameAs (p q : Path) : Bool := p.components == q.components

theorem sameAs_iff {p q : Path} : p.sameAs q = true ↔ p.components = q.components := beq_iff_eq

/-! ## Starting points -/

/-- The text of a path with a given start and pieces. -/
def anchoredText : Option Component → List Text → Text
  | some .root, ps => '/' :: joined ps
  | some .here, ps => joined (['.'] :: ps)
  | _, ps => joined ps

theorem anchor_eq_root_iff {p : Path} : p.anchor = some .root ↔ p.text.head? = some '/' := by
  rcases p with ⟨t⟩
  cases t with
  | nil => simp [anchor, pieces, anchored]
  | cons c t =>
    by_cases h : c = '/'
    · subst h
      simp only [anchor, pieces_slash, List.head?_cons, iff_true]
      cases hp : pieces t with
      | nil => exact absurd hp (pieces_ne_nil t)
      | cons q qs => rfl
    · simp only [anchor, pieces_cons h, List.head?_cons, Option.some.injEq, h, iff_false]
      unfold anchored
      split <;> simp_all

theorem anchor_cases (p : Path) :
    p.anchor = some .root ∨ p.anchor = some .here ∨ p.anchor = none := by
  unfold anchor anchored
  split <;> simp

@[simp] theorem component?_eq_none {n : Text} : component? n = none ↔ n = [] ∨ n = ['.'] := by
  unfold component?
  split <;> simp_all

end Path

end ScriptLexer
