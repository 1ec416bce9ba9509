import ScriptLexer.ErrorKind
import ScriptLexer.Lexeme.Character

/-!
# Lexemes

The smallest parts of a script. `Lexeme.text` writes a lexeme as it stands in the script, so a
list of lexemes is a way to write a script, and `Lexeme.WellFormed` says which lexemes can stand
in one.

A `Reading` is what a reader makes of the text in front of it: a value and the text after it, a
refusal that leaves the text to other readers, or a fault of the text.
-/

namespace ScriptLexer

/-- A part of a script. -/
inductive Lexeme where
  /-- A run of layout characters. -/
  | blank (run : Text)
  /-- A line comment, from `//` to the end of the line. -/
  | comment (body : Text)
  /-- A run of word characters. -/
  | word (run : Text)
  /-- A text between two quotes. -/
  | quoted (quote : Char) (value : Text)
  /-- A path between `<` and `>`. -/
  | reference (path : Text)
  /-- A character that starts nothing else. -/
  | special (c : Char)
  deriving DecidableEq, Repr

/-- The text with every `q` written twice. -/
def doubled (q : Char) : Text → Text
  | [] => []
  | c :: rest => if c = q then q :: q :: doubled q rest else c :: doubled q rest

/-- What a path of a reference may hold. -/
def isPathCharacter (c : Char) : Bool := c != '>' && !isRefusedInPath c

theorem isPathCharacter_iff {c : Char} :
    isPathCharacter c = true ↔ c ≠ '>' ∧ isRefusedInPath c = false := by
  simp [isPathCharacter]

namespace Lexeme

/-- The lexeme as it stands in a script. -/
def text : Lexeme → Text
  | blank run => run
  | comment body => '/' :: '/' :: body
  | word run => run
  | quoted q value => q :: doubled q value ++ [q]
  | reference path => '<' :: path ++ ['>']
  | special c => [c]

def length (l : Lexeme) : Nat := l.text.length

/-- Whether the lexeme can stand in a script. -/
def WellFormed : Lexeme → Prop
  | blank run => run ≠ [] ∧ ∀ c ∈ run, isLayout c = true
  | comment body => ∀ c ∈ body, isLineEnd c = false
  | word run => run ≠ [] ∧ ∀ c ∈ run, isWord c = true
  | quoted q _ => isQuote q = true
  | reference path => ∀ c ∈ path, isPathCharacter c = true
  | special c => isLayout c = false ∧ isWord c = false ∧ isQuote c = false ∧ c ≠ '<'

/-- Whether the lexeme only separates others. -/
def isFiller : Lexeme → Bool
  | blank _ | comment _ => true
  | _ => false

theorem text_ne_nil {l : Lexeme} (h : l.WellFormed) : l.text ≠ [] := by
  cases l <;> simp_all [text, WellFormed]

end Lexeme

/-- A defect of a text: what it is, and how many characters it spans where that is known. -/
structure Fault where
  kind : ErrorKind
  length : Option Nat
  deriving DecidableEq, Repr

/-- What a reader makes of a text. -/
inductive Reading (α : Type) where
  /-- A value, and the text after it. -/
  | read (value : α) (rest : Text)
  /-- Not for this reader. -/
  | mismatch
  /-- The text is defective. -/
  | fault (f : Fault)
  deriving DecidableEq, Repr

namespace Reading

variable {α β : Type}

def map (f : α → β) : Reading α → Reading β
  | read value rest => read (f value) rest
  | mismatch => mismatch
  | fault e => fault e

theorem map_eq_read {f : α → β} {r : Reading α} {b : β} {rest : Text} :
    r.map f = read b rest ↔ ∃ a, r = read a rest ∧ f a = b := by
  cases r with
  | read a rest =>
    simp only [map, read.injEq]
    exact ⟨fun ⟨h, h'⟩ => ⟨a, ⟨rfl, h'⟩, h⟩, fun ⟨_, ⟨h, h'⟩, h''⟩ => ⟨h ▸ h'', h'⟩⟩
  | mismatch => simp [map]
  | fault e => simp [map]

@[simp] theorem map_eq_mismatch {f : α → β} {r : Reading α} :
    r.map f = mismatch ↔ r = mismatch := by
  cases r <;> simp [map]

@[simp] theorem map_eq_fault {f : α → β} {r : Reading α} {e : Fault} :
    r.map f = fault e ↔ r = fault e := by
  cases r <;> simp [map]

end Reading

end ScriptLexer
