import ScriptLexer.Lexeme.Reader

/-!
# Scanning a text

`Start.of` decides from the first characters of a text which reader is in charge, and `Start.read`
runs it. `lex` splits a whole text into lexemes, up to its end or to the first fault.

The reader in charge never refuses (`read_of_ne_mismatch`), so the case of `lex` that takes a single
character when it does is never reached; it is there because the two decisions are made apart.
What a reader leaves is shorter (`read_length`), which is why `lex` ends. The lexemes in order are
the text up to the fault (`lex_eq`).
-/

namespace ScriptLexer

/-- What starts at a place of a text that is not layout. -/
inductive Start where
  | word
  | quoted (quote : Char)
  | reference
  | comment
  | special
  deriving DecidableEq, Repr

namespace Start

/-- What the character `c` starts when `rest` follows it. -/
def of (c : Char) (rest : Text) : Start :=
  if isWord c then .word
  else if isQuote c then .quoted c
  else if c = '<' then .reference
  else if c = '/' ∧ rest.head? = some '/' then .comment
  else .special

/-- What starts a text; nothing starts the empty text. -/
def of? : Text → Option Start
  | [] => none
  | c :: rest => some (of c rest)

def read : Start → Text → Reading Lexeme
  | word, t => (readWord t).map .word
  | quoted q, t => (readQuoted t).map (.quoted q)
  | reference, t => (readReference t).map .reference
  | comment, t => (readComment t).map .comment
  | special, t => (readSpecial t).map .special

theorem read_length {s : Start} {t rest : Text} {l : Lexeme} (h : s.read t = .read l rest) :
    rest.length < t.length := by
  cases s <;> simp only [read, Reading.map_eq_read] at h <;> obtain ⟨_, h, -⟩ := h
  · exact readWord_length h
  · exact readQuoted_length h
  · exact readReference_length h
  · exact readComment_length h
  · exact readSpecial_length h

/-- **The reader in charge never refuses.** -/
theorem read_of_ne_mismatch (c : Char) (rest : Text) :
    (of c rest).read (c :: rest) ≠ .mismatch := by
  unfold of
  split
  · next h => simp [read, readWord, h]
  split
  · next h =>
    simp only [read, readQuoted, h, if_true, ne_eq, Reading.map_eq_mismatch]
    split <;> simp
  split
  · next h =>
    subst h
    simp only [read, readReference, ne_eq, Reading.map_eq_mismatch]
    split
    · simp
    · split <;> simp
  split
  · next h =>
    obtain ⟨rfl, h⟩ := h
    cases rest with
    | nil => simp at h
    | cons d rest =>
      simp only [List.head?_cons, Option.some.injEq] at h
      subst h
      simp [read, readComment]
  · simp [read, readSpecial]

/-- **What is read is how the lexeme is written.** -/
theorem read_of_eq {c : Char} {t rest : Text} {l : Lexeme} (hc : isLayout c = false)
    (h : (of c t).read (c :: t) = .read l rest) :
    c :: t = l.text ++ rest ∧ l.WellFormed := by
  unfold of at h
  split at h
  · obtain ⟨w, hw, rfl⟩ := Reading.map_eq_read.1 h
    exact readWord_eq hw
  next hword =>
  split at h
  · obtain ⟨v, hv, rfl⟩ := Reading.map_eq_read.1 h
    exact readQuoted_eq hv
  next hquote =>
  split at h
  · obtain ⟨p, hp, rfl⟩ := Reading.map_eq_read.1 h
    exact readReference_eq hp
  next href =>
  split at h
  · obtain ⟨b, hb, rfl⟩ := Reading.map_eq_read.1 h
    exact readComment_eq hb
  · change (Reading.read c t).map Lexeme.special = _ at h
    obtain ⟨d, hd, rfl⟩ := Reading.map_eq_read.1 h
    obtain ⟨rfl, rfl⟩ := Reading.read.inj hd
    exact ⟨rfl, hc, by simpa using hword, by simpa using hquote, href⟩

end Start

/-! ## Whole texts -/

/-- The lexemes of a text, and the fault that ends them unless the text does. -/
structure Scan where
  lexemes : List Lexeme
  fault : Option Fault
  deriving DecidableEq, Repr

namespace Scan

def cons (l : Lexeme) (s : Scan) : Scan := ⟨l :: s.lexemes, s.fault⟩

@[simp] theorem lexemes_cons (l : Lexeme) (s : Scan) :
    (s.cons l).lexemes = l :: s.lexemes := rfl

@[simp] theorem fault_cons (l : Lexeme) (s : Scan) : (s.cons l).fault = s.fault := rfl

end Scan

/-- Splits a text into lexemes. -/
def lex (t : Text) : Scan :=
  match t with
  | [] => ⟨[], none⟩
  | c :: rest =>
    if isLayout c then
      (lex (rest.dropWhile isLayout)).cons (.blank (c :: rest.takeWhile isLayout))
    else
      match _h : (Start.of c rest).read (c :: rest) with
      | .read l after => (lex after).cons l
      | .fault f => ⟨[], some f⟩
      | .mismatch => (lex rest).cons (.special c)
termination_by t.length
decreasing_by
  · exact Nat.lt_succ_of_le (List.dropWhile_sublist _).length_le
  · exact Start.read_length _h
  · exact Nat.lt_succ_self _

/-- **The lexemes are the text up to the fault, and each can stand in a script.** -/
theorem lex_eq (t : Text) :
    (∃ rest, t = (lex t).lexemes.flatMap Lexeme.text ++ rest ∧ ((lex t).fault = none → rest = [])) ∧
      ∀ l ∈ (lex t).lexemes, l.WellFormed := by
  fun_induction lex t with
  | case1 => simp
  | case2 c rest h ih =>
    obtain ⟨⟨r, hr, hf⟩, hw⟩ := ih
    refine ⟨⟨r, ?_, hf⟩, ?_⟩
    · rw [Scan.lexemes_cons, List.flatMap_cons, List.append_assoc, ← hr]
      simp [Lexeme.text]
    · simp only [Scan.lexemes_cons, List.mem_cons, forall_eq_or_imp]
      refine ⟨⟨by simp, fun d hd => ?_⟩, hw⟩
      rcases List.mem_cons.1 hd with rfl | hd
      · exact h
      · exact List.all_eq_true.1 List.all_takeWhile d hd
  | case3 c rest h l after hl ih =>
    obtain ⟨⟨r, hr, hf⟩, hw⟩ := ih
    obtain ⟨ht, hl⟩ := Start.read_of_eq (by simpa using h) hl
    refine ⟨⟨r, ?_, hf⟩, ?_⟩
    · rw [Scan.lexemes_cons, List.flatMap_cons, List.append_assoc, ← hr, ht]
    · simp only [Scan.lexemes_cons, List.mem_cons, forall_eq_or_imp]
      exact ⟨hl, hw⟩
  | case4 => simp
  | case5 c rest _ h => exact absurd h (Start.read_of_ne_mismatch c rest)

end ScriptLexer
