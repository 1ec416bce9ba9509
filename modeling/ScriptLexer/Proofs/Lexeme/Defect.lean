import Mathlib.Data.List.TakeWhile
import ScriptLexer.Proofs.Lexeme.Boundary

/-!
# Where no lexeme can be read

Three defects of a text keep its reader from a lexeme: a quotation that nothing closes, a reference
that nothing closes, and a reference with a character that no path may hold. `Defect` says what the
text looks like in each case, and `Start.read_eq_fault_iff` that these are all the cases.

In a quotation that nothing closes, every quote is doubled, up to the end of the text
(`quotedBody_eq_none_iff`). So one more quote at the end closes it, and nothing else is left over.
-/

namespace ScriptLexer

/-! ## Open quotations -/

theorem quotedBody_doubled (q : Char) (value : Text) : quotedBody q (doubled q value) = none := by
  induction value with
  | nil => rfl
  | cons c value ih =>
    by_cases hc : c = q
    · subst hc
      simp [doubled, quotedBody, ih]
    · -- A last character is a case of its own in the reader.
      cases hv : doubled q value with
      | nil => simp [doubled, hc, hv, quotedBody]
      | cons d rest =>
        rw [hv] at ih
        simp [doubled, hc, hv, quotedBody, ih]

/-- **A quotation stays open if and only if every quote in it is doubled.** -/
theorem quotedBody_eq_none_iff {q : Char} {t : Text} :
    quotedBody q t = none ↔ ∃ value, t = doubled q value := by
  constructor
  · intro h
    fun_induction quotedBody q t with
    | case1 => exact ⟨[], rfl⟩
    | case2 => cases h
    | case3 c hc => exact ⟨[c], by simp [doubled, hc]⟩
    | case4 t ih =>
      obtain ⟨value, rfl⟩ := ih (Option.map_eq_none_iff.1 h)
      exact ⟨q :: value, by simp [doubled]⟩
    | case5 => cases h
    | case6 c d t hc ih =>
      obtain ⟨value, ht⟩ := ih (Option.map_eq_none_iff.1 h)
      exact ⟨c :: value, by simp [doubled, hc, ht]⟩
  · rintro ⟨value, rfl⟩
    exact quotedBody_doubled q value

/-- An open quotation has no closing quote: none is followed by something other than a quote. -/
theorem not_closed_of_doubled {q : Char} {value : Text} :
    ¬ ∃ v rest, doubled q value = doubled q v ++ q :: rest ∧ rest.head? ≠ some q := by
  rintro ⟨v, rest, h, hrest⟩
  have hopen := quotedBody_doubled q value
  rw [h, quotedBody_doubled_append hrest] at hopen
  cases hopen

/-! ## The defects -/

inductive Defect : Text → Fault → Prop
  /-- Every quote behind the first one is doubled. -/
  | openQuotation {q : Char} {value : Text} : isQuote q = true →
      Defect (q :: doubled q value) ⟨.unterminatedQuote q, none⟩
  /-- The text ends inside the path of a reference. -/
  | openReference {path : Text} : (∀ c ∈ path, isPathCharacter c = true) →
      Defect ('<' :: path) ⟨.unterminatedReference, none⟩
  /-- The path of a reference runs into a character that no path may hold. -/
  | refusedCharacter {path rest : Text} {c : Char} : (∀ d ∈ path, isPathCharacter d = true) →
      isRefusedInPath c = true →
      Defect ('<' :: (path ++ c :: rest)) ⟨.invalidPathCharacter c, some (path.length + 2)⟩

theorem isRefusedInPath_of_not_isPathCharacter {c : Char} (h : isPathCharacter c = false)
    (hc : c ≠ '>') : isRefusedInPath c = true := by
  simpa [isPathCharacter, hc] using h

theorem isPathCharacter_of_isRefusedInPath {c : Char} (h : isRefusedInPath c = true) :
    isPathCharacter c = false := by
  simp [isPathCharacter, h]

theorem ne_close_of_isRefusedInPath {c : Char} (h : isRefusedInPath c = true) : c ≠ '>' := by
  rintro rfl
  exact absurd h (by decide)

theorem defect_of_readReference {t : Text} {f : Fault} (h : readReference ('<' :: t) = .fault f) :
    Defect ('<' :: t) f := by
  have hpath : ∀ c ∈ t.takeWhile isPathCharacter, isPathCharacter c = true := by
    intro c hc
    exact List.mem_takeWhile_imp hc
  have ht : t = t.takeWhile isPathCharacter ++ t.dropWhile isPathCharacter :=
    List.takeWhile_append_dropWhile.symm
  simp only [readReference] at h
  split at h
  · next hd =>
    obtain rfl := Reading.fault.inj h
    rw [ht, hd, List.append_nil]
    exact .openReference hpath
  · next c rest hd =>
    by_cases hc : c = '>'
    · rw [if_pos hc] at h
      cases h
    · rw [if_neg hc] at h
      obtain rfl := Reading.fault.inj h
      have hstop : isPathCharacter c = false := by
        apply head?_dropWhile isPathCharacter t
        rw [hd]
        rfl
      have hrefused := isRefusedInPath_of_not_isPathCharacter hstop hc
      have hdefect : Defect ('<' :: (t.takeWhile isPathCharacter ++ c :: rest)) _ :=
        .refusedCharacter hpath hrefused
      rwa [← hd, ← ht] at hdefect

theorem Defect.readReference_eq {t : Text} {f : Fault} (h : Defect ('<' :: t) f) :
    readReference ('<' :: t) = .fault f := by
  generalize hs : '<' :: t = s at h
  cases h with
  | @openQuotation q value hq =>
    obtain ⟨rfl, -⟩ := List.cons.inj hs
    exact absurd hq (by decide)
  | @openReference path hpath =>
    have hdrop := dropWhile_append_of_head? (t := []) hpath (by simp)
    rw [List.append_nil] at hdrop
    simp [readReference, hdrop]
  | @refusedCharacter path rest c hpath hc =>
    have hstop : ∀ d ∈ (c :: rest).head?, isPathCharacter d = false := by
      intro d hd
      obtain rfl := Option.some.inj hd
      exact isPathCharacter_of_isRefusedInPath hc
    simp [readReference, dropWhile_append_of_head? hpath hstop,
      takeWhile_append_of_head? hpath hstop, ne_close_of_isRefusedInPath hc]

theorem readReference_eq_fault_iff {t : Text} {f : Fault} :
    readReference ('<' :: t) = .fault f ↔ Defect ('<' :: t) f :=
  ⟨defect_of_readReference, Defect.readReference_eq⟩

theorem readQuoted_eq_fault_iff {q : Char} (hq : isQuote q = true) {t : Text} {f : Fault} :
    readQuoted (q :: t) = .fault f ↔ Defect (q :: t) f := by
  rw [readQuoted, if_pos hq]
  constructor
  · intro h
    cases hbody : quotedBody q t with
    | some body =>
      rw [hbody] at h
      cases h
    | none =>
      rw [hbody] at h
      obtain rfl := Reading.fault.inj h
      obtain ⟨value, rfl⟩ := quotedBody_eq_none_iff.1 hbody
      exact .openQuotation hq
  · intro h
    generalize hs : q :: t = s at h
    cases h with
    | @openQuotation q' value hq' =>
      obtain ⟨rfl, rfl⟩ := List.cons.inj hs
      rw [quotedBody_doubled]
    | openReference _ | refusedCharacter _ _ =>
      obtain ⟨rfl, -⟩ := List.cons.inj hs
      exact absurd hq (by decide)

theorem Defect.isQuote_or_eq {c : Char} {t : Text} {f : Fault} (h : Defect (c :: t) f) :
    isQuote c = true ∨ c = '<' := by
  generalize hs : c :: t = s at h
  cases h with
  | openQuotation hq =>
    obtain ⟨rfl, -⟩ := List.cons.inj hs
    exact .inl hq
  | openReference _ | refusedCharacter _ _ => exact .inr (List.cons.inj hs).1

namespace Start

/-- **The reader in charge fails on the defects, and on nothing else.** -/
theorem read_eq_fault_iff {c : Char} {t : Text} {f : Fault} :
    (of c t).read (c :: t) = .fault f ↔ Defect (c :: t) f := by
  by_cases hq : isQuote c = true
  · rw [of_quoted hq, read, Reading.map_eq_fault, readQuoted_eq_fault_iff hq]
  by_cases href : c = '<'
  · rw [href, of_reference, read, Reading.map_eq_fault, readReference_eq_fault_iff]
  constructor
  · -- The other readers take what they are given.
    intro h
    unfold of at h
    rw [if_neg hq, if_neg href] at h
    split at h
    · rw [read, Reading.map_eq_fault, readWord] at h
      split at h <;> cases h
    split at h
    · rw [read, Reading.map_eq_fault, readComment.eq_def] at h
      split at h <;> cases h
    · cases h
  · intro h
    rcases h.isQuote_or_eq with h | h
    · exact absurd h hq
    · exact absurd h href

end Start

end ScriptLexer
