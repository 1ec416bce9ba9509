import ScriptLexer.Proofs.Lexeme.Boundary

/-!
# Lexemes in a row

`written` puts lexemes one after the other. `Cut rest ls` says that the lexemes `ls`, with the text
`rest` behind them, are cut where they were written: each can stand in a script and ends before
what follows it.

A cut depends on `rest` through its first character alone, and on that only by the last lexeme.
So a cut survives when `rest` is taken away (`Cut.nil`), or replaced by a text that starts with a
line end (`Cut.of_isLineEnd`) or with the same character (`Cut.of_head?`).
-/

namespace ScriptLexer

def written (ls : List Lexeme) : Text := ls.flatMap Lexeme.text

@[simp] theorem written_nil : written [] = [] := rfl

@[simp] theorem written_cons (l : Lexeme) (ls : List Lexeme) :
    written (l :: ls) = l.text ++ written ls := rfl

@[simp] theorem written_append (ls ls' : List Lexeme) :
    written (ls ++ ls') = written ls ++ written ls' := List.flatMap_append

theorem length_written_cons (l : Lexeme) (ls : List Lexeme) :
    (written (l :: ls)).length = l.length + (written ls).length := List.length_append

/-- With `rest` behind them, the lexemes are cut where they were written. -/
def Cut (rest : Text) : List Lexeme → Prop
  | [] => True
  | l :: ls => l.WellFormed ∧ l.EndsBefore (written ls ++ rest) ∧ Cut rest ls

namespace Cut

variable {rest rest' : Text} {ls ls' : List Lexeme}

theorem wellFormed (h : Cut rest ls) : ∀ l ∈ ls, l.WellFormed := by
  induction ls with
  | nil => simp
  | cons l ls ih =>
    obtain ⟨hl, -, hls⟩ := h
    intro l' hl'
    rcases List.mem_cons.1 hl' with rfl | hl'
    · exact hl
    · exact ih hls l' hl'

theorem append_iff : Cut rest (ls ++ ls') ↔ Cut (written ls' ++ rest) ls ∧ Cut rest ls' := by
  induction ls with
  | nil => simp [Cut]
  | cons l ls ih => simp only [List.cons_append, Cut, written_append, List.append_assoc, ih, and_assoc]

/-- Another text may stand behind a cut if the last lexeme also ends before it: inside, a lexeme only
sees the first character of the next one. -/
theorem replace (h : Cut rest ls)
    (hr : ∀ l : Lexeme, l.WellFormed → l.EndsBefore rest → l.EndsBefore rest') : Cut rest' ls := by
  induction ls with
  | nil => trivial
  | cons l ls ih =>
    obtain ⟨hl, he, hls⟩ := h
    refine ⟨hl, ?_, ih hls⟩
    cases ls with
    | nil => exact hr l hl he
    | cons l' ls =>
      obtain ⟨c, t, hc⟩ := List.exists_cons_of_ne_nil (Lexeme.text_ne_nil hls.1)
      apply he.of_head?
      simp only [written_cons, hc, List.cons_append, List.head?_cons]

/-- **A cut stays a cut when the text behind it is taken away.** -/
theorem nil (h : Cut rest ls) : Cut [] ls := h.replace fun l _ _ => l.endsBefore_nil

/-- **A cut stays a cut when a line ends behind it.** -/
theorem of_isLineEnd (h : Cut rest ls) {c : Char} (hc : isLineEnd c = true) (t : Text) :
    Cut (c :: t) ls :=
  h.replace fun _ hl _ => Lexeme.endsBefore_of_isLineEnd hl hc t

/-- **A cut stays a cut in front of a text that starts with the same character.** -/
theorem of_head? (h : Cut rest ls) (hr : rest.head? = rest'.head?) : Cut rest' ls :=
  h.replace fun _ _ he => he.of_head? hr

end Cut

theorem exists_lexeme_at {ls : List Lexeme} {i : Nat} (h : i < (written ls).length) :
    ∃ ls₁ l ls₂, ls = ls₁ ++ l :: ls₂ ∧ (written ls₁).length ≤ i ∧
      i < (written ls₁).length + l.length := by
  induction ls generalizing i with
  | nil => simp at h
  | cons l ls ih =>
    rcases Nat.lt_or_ge i l.length with hi | hi
    · exact ⟨[], l, ls, rfl, Nat.zero_le i, by simpa using hi⟩
    · rw [length_written_cons] at h
      obtain ⟨ls₁, l', ls₂, rfl, hle, hlt⟩ := ih (i := i - l.length) (by omega)
      have hlen : (written (l :: ls₁)).length = l.length + (written ls₁).length :=
        length_written_cons l ls₁
      exact ⟨l :: ls₁, l', ls₂, rfl, by omega, by omega⟩

end ScriptLexer
