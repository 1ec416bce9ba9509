import ScriptLexer.Text.Alphanumeric

/-!
# Classes of characters

Layout characters separate lexemes, word characters make up words, and the two quotes delimit
quoted texts. A path between `<` and `>` may hold any character that `isRefusedInPath` does not
name.

The classes that can start a lexeme are disjoint; `isWord_of_isLayout` and its companions say so.
-/

namespace ScriptLexer

/-- Space, tab, line feed or carriage return. -/
def isLayout (c : Char) : Bool := c == ' ' || c == '\t' || c == '\n' || c == '\r'

/-- A letter, a digit or an underscore. -/
def isWord (c : Char) : Bool := c == '_' || isAlphanumeric c

def isQuote (c : Char) : Bool := c == '\'' || c == '"'

/-- A character that no path of a reference may hold. -/
def isRefusedInPath (c : Char) : Bool := c.toNat < 0x20 || c == '"' || c == '<' || c == '|'

/-- The end of a line, and so of a line comment. -/
def isLineEnd (c : Char) : Bool := c == '\r' || c == '\n'

/-! ## The classes are disjoint -/

theorem isLayout_iff {c : Char} :
    isLayout c = true ↔ c = ' ' ∨ c = '\t' ∨ c = '\n' ∨ c = '\r' := by
  simp [isLayout, or_assoc]

theorem isQuote_iff {c : Char} : isQuote c = true ↔ c = '\'' ∨ c = '"' := by simp [isQuote]

theorem isLineEnd_iff {c : Char} : isLineEnd c = true ↔ c = '\r' ∨ c = '\n' := by simp [isLineEnd]

theorem isRefusedInPath_iff {c : Char} :
    isRefusedInPath c = true ↔ c.toNat ≤ 0x1F ∨ c = '"' ∨ c = '<' ∨ c = '|' := by
  simp [isRefusedInPath, or_assoc, Nat.lt_succ_iff]

theorem isWord_of_isLayout {c : Char} (h : isLayout c = true) : isWord c = false := by
  rcases isLayout_iff.1 h with rfl | rfl | rfl | rfl <;> decide +kernel

theorem isWord_of_isQuote {c : Char} (h : isQuote c = true) : isWord c = false := by
  rcases isQuote_iff.1 h with rfl | rfl <;> decide +kernel

theorem isLayout_of_isQuote {c : Char} (h : isQuote c = true) : isLayout c = false := by
  rcases isQuote_iff.1 h with rfl | rfl <;> decide

theorem isLayout_of_isLineEnd {c : Char} (h : isLineEnd c = true) : isLayout c = true := by
  rcases isLineEnd_iff.1 h with rfl | rfl <;> decide

end ScriptLexer
