import ScriptLexer.Proofs.Text.Lines
import ScriptLexer.Proofs.Tokens.Blocks

/-!
# Positions of tokens and errors

A `Report` is what a run says about a place of a script: a token there, or the error.
`Outcome.reportsOf` are the reports on one script of a list, with its place in the list to tell
equal scripts apart: the tokens of its block, then the error if it was the script that failed.

**Their positions ascend**, by line and then by column. Those of all offsets do not
(`Position.of_eq_of_iff`): the two around the line feed of a carriage return and line feed are one.
But a token starts at a character that is not layout (`not_isInLineEnd_of_mem_tokensAt`), and the
end of the script or the error comes behind all tokens.

Main result: `reportsOf_ascending`.
-/

namespace ScriptLexer

/-! ## Reports -/

/-- What a run says about a place of a script. -/
inductive Report where
  | token (a : Token)
  | error (e : LexicalError)
  deriving DecidableEq, Repr

namespace Report

def script : Report → Script
  | token a => a.script
  | error e => e.script

def offset : Report → Nat
  | token a => a.start
  | error e => e.offset

def position : Report → Position
  | token a => a.position
  | error e => e.position

theorem position_eq (a : Report) : a.position = a.script.position a.offset := by
  cases a <;> rfl

end Report

namespace Outcome

/-- All tokens, then the error if there is one. -/
def reports (o : Outcome) : List Report := o.tokens.map .token ++ o.error.toList.map .error

/-- The reports on the script at a place of the list. The script that failed is the first that was
not read to its end. -/
def reportsOf (o : Outcome) (place : Nat) : List Report :=
  ((numbered 0 o.tokens).filter fun a => a.1 = place).map (fun a => .token a.2) ++
    if place = o.finished then o.error.toList.map .error else []

/-! ## Reports on a list of scripts -/

theorem numbered_succ (n : Nat) (ts : List Token) :
    numbered (n + 1) ts = (numbered n ts).map fun a => (a.1 + 1, a.2) := by
  induction ts generalizing n with
  | nil => rfl
  | cons a ts ih => cases ha : a.isEndOfFile <;> simp [numbered, ha, ih]

section Whole

variable {o : Outcome} {s : Script} (h : o.IsWhole s) (o' : Outcome)

include h

theorem IsWhole.reportsOf_zero : (o.append o').reportsOf 0 = o.reports := by
  have hfinished : 0 ≠ (o.append o').finished := by
    rw [finished_append, h.finished]
    omega
  rw [reportsOf, if_neg hfinished, append, h.numbered_append, numbered_succ, reports, h.error]
  simp [List.filter_map, Function.comp_def]

theorem IsWhole.reportsOf_succ (place : Nat) :
    (o.append o').reportsOf (place + 1) = o'.reportsOf place := by
  have hfinished : (o.append o').finished = o'.finished + 1 := by
    rw [finished_append, h.finished, Nat.add_comm]
  rw [reportsOf, hfinished, append, h.numbered_append, numbered_succ, reportsOf]
  simp [List.filter_map, Function.comp_def]

end Whole

theorem IsBroken.reportsOf_eq {o : Outcome} {s : Script} {e : LexicalError} (h : o.IsBroken s e)
    (place : Nat) : o.reportsOf place = if place = 0 then o.reports else [] := by
  rw [reportsOf, h.numbered_eq, h.finished, reports]
  by_cases hplace : place = 0
  · simp [hplace, List.filter_map, Function.comp_def]
  · simp [hplace, Ne.symm hplace, List.filter_map, Function.comp_def]

end Outcome

namespace Resolver

/-- **The reports on a script are those that it has alone**, unless it was not read. -/
theorem reportsOf_tokenize (r : Resolver) (ss : List Script) (place : Nat) :
    (r.tokenize ss).value.reportsOf place = [] ∨ ∃ s, ss[place]? = some s ∧
      (r.tokenize ss).value.reportsOf place = (r.tokenize [s]).value.reports := by
  induction ss generalizing place with
  | nil =>
    left
    simp [tokenize, Outcome.reportsOf, Outcome.numbered]
  | cons s ss ih =>
    rcases r.tokenize_cons_cases s ss with ⟨hs, hcons⟩ | ⟨e, hs, hcons⟩
    · rw [hcons]
      cases place with
      | zero => exact .inr ⟨s, rfl, hs.reportsOf_zero _⟩
      | succ k =>
        rw [hs.reportsOf_succ]
        exact ih k
    · rw [hcons, hs.reportsOf_eq]
      cases place with
      | zero => exact .inr ⟨s, rfl, if_pos rfl⟩
      | succ k => exact .inl (if_neg (Nat.succ_ne_zero k))

/-- **The reports of a run are those on its scripts**, in the order of the list. -/
theorem flatMap_reportsOf (r : Resolver) (ss : List Script) :
    (List.range ((r.tokenize ss).value.finished + 1)).flatMap (r.tokenize ss).value.reportsOf =
      (r.tokenize ss).value.reports := by
  induction ss with
  | nil => rfl
  | cons s ss ih =>
    rcases r.tokenize_cons_cases s ss with ⟨hs, hcons⟩ | ⟨e, hs, hcons⟩
    · have hfinished := Outcome.finished_append (r.tokenize [s]).value (r.tokenize ss).value
      have hrest := funext (hs.reportsOf_succ (r.tokenize ss).value)
      rw [hcons, hfinished, hs.finished, Nat.add_comm 1, List.range_succ_eq_map,
        List.flatMap_cons, List.flatMap_map, hs.reportsOf_zero, hrest, ih]
      simp [Outcome.reports, Outcome.append, hs.error]
    · rw [hcons, hs.finished]
      simp [hs.reportsOf_eq]

end Resolver

/-! ## Reports on one script -/

theorem Lexeme.isLayout_of_head? {l : Lexeme} {content : Text → Text} (hw : l.WellFormed)
    (hm : l.meaning content ≠ none) {c : Char} (hc : l.text.head? = some c) :
    isLayout c = false := by
  cases l with
  | blank run => exact absurd rfl hm
  | comment body => exact absurd rfl hm
  | word run =>
    have hword : isWord c = true := hw.2 c (List.mem_of_head? hc)
    cases hlay : isLayout c with
    | false => rfl
    | true =>
      rw [isWord_of_isLayout hlay] at hword
      cases hword
  | quoted q value =>
    obtain rfl : q = c := Option.some.inj hc
    exact isLayout_of_isQuote hw
  | reference path =>
    obtain rfl : '<' = c := Option.some.inj hc
    rfl
  | special d =>
    obtain rfl : d = c := Option.some.inj hc
    exact hw.1

section Run

variable {content : Text → Text} {s : Script} {ls : List Lexeme} {rest : Text} {a : Token}

/-- **No token starts inside a line end.** -/
theorem not_isInLineEnd_of_mem_tokensAt (hs : s.text = written ls ++ rest)
    (hw : ∀ l ∈ ls, l.WellFormed) (ha : a ∈ tokensAt content s 0 ls) :
    ¬ s.text.IsInLineEnd a.start := by
  intro hin
  obtain ⟨ls₁, l, ls₂, kind, value, rfl, hm, rfl⟩ := mem_tokensAt.1 ha
  have hl : l.WellFormed := hw l (by simp)
  obtain ⟨c, t, hc⟩ := List.exists_cons_of_ne_nil (Lexeme.text_ne_nil hl)
  have hlf := hin.getElem?_eq
  have htext : s.text = written ls₁ ++ c :: (t ++ (written ls₂ ++ rest)) := by
    rw [hs, written_append, written_cons, hc, List.append_assoc, List.append_assoc]
    rfl
  dsimp only at hlf
  rw [htext, Nat.zero_add, List.getElem?_append_right (le_refl _), Nat.sub_self] at hlf
  obtain rfl : c = '\n' := Option.some.inj hlf
  have hlayout := Lexeme.isLayout_of_head? hl (hm ▸ Option.some_ne_none _) (by rw [hc]; rfl)
  exact absurd hlayout (by decide)

/-- **Everything behind a token has a later position.** -/
theorem position_lt_of_mem_tokensAt (hs : s.text = written ls ++ rest)
    (hw : ∀ l ∈ ls, l.WellFormed) (ha : a ∈ tokensAt content s 0 ls) {n : Nat} (hn : a.stop ≤ n)
    (hlen : n ≤ s.length) : a.position < s.position n := by
  obtain ⟨-, hlt, -⟩ := bounds_of_mem_tokensAt hw ha
  rw [Token.position, script_of_mem_tokensAt ha]
  exact Position.of_lt_of_lt (hlt.trans_le hn) hlen (not_isInLineEnd_of_mem_tokensAt hs hw ha)

end Run

/-- The reports on a script alone are the tokens of its run and one more behind them: the end of the
script or the error. -/
theorem Resolver.exists_reports (r : Resolver) (s : Script) :
    ∃ ls rest last, s.text = written ls ++ rest ∧ (∀ l ∈ ls, l.WellFormed) ∧
      (r.tokenize [s]).value.reports =
        (tokensAt (r.content s.folder) s 0 ls).map .token ++ [last] ∧
      last.script = s ∧ last.offset = (written ls).length := by
  obtain ⟨ls, rest, hs, hreach, hend⟩ := r.exists_run s
  rcases hend with ⟨rfl, ho⟩ | ⟨kind, length, -, ho⟩
  · refine ⟨ls, [], .token (Token.endOfFile s), hs, hreach.cut.wellFormed, ?_, rfl, ?_⟩
    · rw [ho]
      simp [Outcome.reports]
    · show s.text.length = (written ls).length
      rw [hs, List.append_nil]
  · refine ⟨ls, rest, .error ⟨kind, s, (written ls).length, length⟩, hs, hreach.cut.wellFormed,
      ?_, rfl, rfl⟩
    rw [ho]
    rfl

/-- **The positions of a script alone ascend.** -/
theorem Resolver.pairwise_reports (r : Resolver) (s : Script) :
    (r.tokenize [s]).value.reports.Pairwise (fun a b => a.position < b.position) ∧
      ∀ a ∈ (r.tokenize [s]).value.reports, a.script = s := by
  obtain ⟨ls, rest, last, hs, hw, hreports, hscript, hoffset⟩ := r.exists_reports s
  have hlen : (written ls).length ≤ s.length := by
    rw [Script.length, hs, List.length_append]
    exact Nat.le_add_right _ _
  rw [hreports]
  constructor
  · refine List.pairwise_append.2 ⟨?_, List.pairwise_singleton _ _, ?_⟩
    · rw [List.pairwise_map]
      refine (pairwise_tokensAt hw).imp_of_mem ?_
      intro a b ha hb hle
      have hb' := bounds_of_mem_tokensAt hw hb
      have hlt := position_lt_of_mem_tokensAt hs hw ha hle (by omega)
      rwa [← script_of_mem_tokensAt hb] at hlt
    · intro x hx y hy
      obtain ⟨a, ha, rfl⟩ := List.mem_map.1 hx
      obtain rfl := List.mem_singleton.1 hy
      obtain ⟨-, -, hstop⟩ := bounds_of_mem_tokensAt hw ha
      rw [Report.position_eq y, hscript, hoffset]
      exact position_lt_of_mem_tokensAt hs hw ha (by omega) hlen
  · intro x hx
    rcases List.mem_append.1 hx with hx | hx
    · obtain ⟨a, ha, rfl⟩ := List.mem_map.1 hx
      exact script_of_mem_tokensAt ha
    · rwa [List.mem_singleton.1 hx]

/-! ## Sorting -/

/-- **Sorting by strictly ascending keys restores the order.** -/
theorem mergeSort_eq_of_perm {α β : Type} [LinearOrder β] {key : α → β} {xs ys : List α}
    (hys : ys.Pairwise fun a b => key a < key b) (hperm : xs.Perm ys) :
    (xs.mergeSort fun a b => key a ≤ key b) = ys := by
  have hsorted : (xs.mergeSort fun a b => key a ≤ key b).Pairwise fun a b => key a ≤ key b := by
    refine (List.pairwise_mergeSort ?_ ?_ xs).imp fun h => of_decide_eq_true h
    · intro a b c hab hbc
      exact decide_eq_true ((of_decide_eq_true hab).trans (of_decide_eq_true hbc))
    · intro a b
      simpa using le_total (key a) (key b)
  have hnodup : (ys.map key).Nodup := List.pairwise_map.2 (hys.imp ne_of_lt)
  have hall := (List.mergeSort_perm xs fun a b => key a ≤ key b).trans hperm
  refine hall.eq_of_pairwise ?_ hsorted (hys.imp le_of_lt)
  intro a b ha hb hab hba
  exact List.inj_on_of_nodup_map hnodup (hall.mem_iff.1 ha) hb (le_antisymm hab hba)

/-- **Reported positions ascend.** The reports of a run are those on its scripts, one script after
the other. The reports on the script at a place of the list are about that script, and their
positions strictly ascend, by line and then by column. So no two of them are at one position, and
sorting them by position, from whatever order, gives the order of the source. -/
theorem reportsOf_ascending (r : Resolver) (ss : List Script) :
    let o := (r.tokenize ss).value
    (List.range (o.finished + 1)).flatMap o.reportsOf = o.reports ∧
      ∀ place, (∀ a ∈ o.reportsOf place, ss[place]? = some a.script) ∧
        (o.reportsOf place).Pairwise (fun a b => a.position < b.position) ∧
        ∀ xs : List Report, xs.Perm (o.reportsOf place) →
          (xs.mergeSort fun a b => a.position ≤ b.position) = o.reportsOf place := by
  intro o
  refine ⟨r.flatMap_reportsOf ss, fun place => ?_⟩
  have hplace : (∀ a ∈ o.reportsOf place, ss[place]? = some a.script) ∧
      (o.reportsOf place).Pairwise fun a b => a.position < b.position := by
    rcases r.reportsOf_tokenize ss place with hnil | ⟨s, hs, halone⟩
    · rw [hnil]
      exact ⟨List.forall_mem_nil _, .nil⟩
    · obtain ⟨hascending, hscript⟩ := r.pairwise_reports s
      rw [halone]
      refine ⟨fun a ha => ?_, hascending⟩
      rw [hs, hscript a ha]
  exact ⟨hplace.1, hplace.2, fun xs hperm => mergeSort_eq_of_perm hplace.2 hperm⟩

/-- Offsets 3 and 4 have one position, and the quotation starts behind them. -/
example :
    let r : Resolver := ⟨['D'], (MemoryFiles.ofList []).fileSystem⟩
    let s : Script := ⟨⟨['m']⟩, ['x', ' ', '\r', '\n', ';', '\'']⟩
    s.position 3 = s.position 4 ∧
      ((r.tokenize [s, s]).value.reportsOf 0).map Report.position = [⟨1, 1⟩, ⟨2, 1⟩, ⟨2, 2⟩] ∧
      (r.tokenize [s, s]).value.reportsOf 1 = [] := by
  decide +kernel

end ScriptLexer
