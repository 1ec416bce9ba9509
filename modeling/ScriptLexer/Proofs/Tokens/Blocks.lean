import ScriptLexer.Files.Memory
import ScriptLexer.Proofs.Tokens.Stop

/-!
# Blocks of tokens

The outcome of several scripts is made of blocks, one for each script in its place: what the script
has alone. All blocks but the last end with the end of their script, which is its only one; so the
ends of files count the scripts that were read, and tell to which place of the list a token belongs
(`Outcome.numbered`). The last block may be that of a script that failed; nothing comes behind it.

**The law.** Scripts that follow a run without error add their outcome to it, and scripts that
follow an error change nothing (`Resolver.value_tokenize_lists`). The blocks are the law for one
script after the other.

Main result: `tokenize_inBlocks`.
-/

namespace ScriptLexer

namespace Outcome

/-! ## The outcome of one script -/

/-- The script was read to its end, which is its last token and no other. -/
structure IsWhole (o : Outcome) (s : Script) : Prop where
  error : o.error = none
  tokens : ∃ front, o.tokens = front ++ [Token.endOfFile s] ∧
    ∀ a ∈ front, a.script = s ∧ a.isEndOfFile = false

/-- The script was read up to an error in it, and has no end among its tokens. -/
structure IsBroken (o : Outcome) (s : Script) (e : LexicalError) : Prop where
  error : o.error = some e
  script : e.script = s
  tokens : ∀ a ∈ o.tokens, a.script = s ∧ a.isEndOfFile = false

theorem IsWhole.isOk {o : Outcome} {s : Script} (h : o.IsWhole s) : o.isOk = true := by
  rw [Outcome.isOk, h.error]
  rfl

theorem IsBroken.isOk {o : Outcome} {s : Script} {e : LexicalError} (h : o.IsBroken s e) :
    o.isOk = false := by
  rw [Outcome.isOk, h.error]
  rfl

theorem IsWhole.finished {o : Outcome} {s : Script} (h : o.IsWhole s) : o.finished = 1 := by
  obtain ⟨front, htokens, hfront⟩ := h.tokens
  have hnone : front.countP Token.isEndOfFile = 0 := by
    apply List.countP_eq_zero.2
    intro a ha
    simp [(hfront a ha).2]
  rw [Outcome.finished, htokens, List.countP_append, hnone]
  rfl

theorem IsBroken.finished {o : Outcome} {s : Script} {e : LexicalError} (h : o.IsBroken s e) :
    o.finished = 0 := by
  apply List.countP_eq_zero.2
  intro a ha
  simp [(h.tokens a ha).2]

theorem finished_append (o o' : Outcome) : (o.append o').finished = o.finished + o'.finished :=
  List.countP_append

/-! ## Places of tokens -/

theorem numbered_append {ts : List Token} (h : ∀ a ∈ ts, a.isEndOfFile = false) (n : Nat)
    (ts' : List Token) : numbered n (ts ++ ts') = ts.map (n, ·) ++ numbered n ts' := by
  induction ts with
  | nil => rfl
  | cons a ts ih =>
    have ha : a.isEndOfFile = false := h a List.mem_cons_self
    have htail := ih fun b hb => h b (List.mem_cons_of_mem a hb)
    simp [numbered, ha, htail]

theorem IsWhole.numbered_append {o : Outcome} {s : Script} (h : o.IsWhole s) (n : Nat)
    (ts : List Token) : numbered n (o.tokens ++ ts) = o.tokens.map (n, ·) ++ numbered (n + 1) ts := by
  obtain ⟨front, htokens, hfront⟩ := h.tokens
  have hnone : ∀ a ∈ front, a.isEndOfFile = false := fun a ha => (hfront a ha).2
  rw [htokens, List.append_assoc, Outcome.numbered_append hnone, List.map_append,
    List.append_assoc]
  rfl

theorem IsBroken.numbered_eq {o : Outcome} {s : Script} {e : LexicalError} (h : o.IsBroken s e)
    (n : Nat) : numbered n o.tokens = o.tokens.map (n, ·) := by
  have hnone : ∀ a ∈ o.tokens, a.isEndOfFile = false := fun a ha => (h.tokens a ha).2
  have hall := numbered_append hnone n []
  rwa [List.append_nil, numbered, List.append_nil] at hall

theorem le_of_mem_numbered {n k : Nat} {a : Token} {ts : List Token} (h : (k, a) ∈ numbered n ts) :
    k ≤ n + ts.countP Token.isEndOfFile := by
  induction ts generalizing n with
  | nil => cases h
  | cons b ts ih =>
    rw [numbered] at h
    rcases List.mem_cons.1 h with h | h
    · obtain ⟨rfl, -⟩ := Prod.mk.inj h
      exact Nat.le_add_right _ _
    · have htail := ih h
      rw [List.countP_cons]
      cases hb : b.isEndOfFile <;> simp only [hb, if_true, if_false, Bool.false_eq_true] at htail ⊢ <;>
        omega

end Outcome

namespace Resolver

variable {r : Resolver}

/-- **A script alone is read to its end, or up to an error in it.** -/
theorem isWhole_or_isBroken (r : Resolver) (s : Script) :
    (r.tokenize [s]).value.IsWhole s ∨ ∃ e, (r.tokenize [s]).value.IsBroken s e := by
  obtain ⟨ls, rest, -, -, hend⟩ := r.exists_run s
  have htokens : ∀ a ∈ tokensAt (r.content s.folder) s 0 ls,
      a.script = s ∧ a.isEndOfFile = false := by
    intro a ha
    exact ⟨script_of_mem_tokensAt ha, isEndOfFile_of_mem_tokensAt ha⟩
  rcases hend with ⟨-, ho⟩ | ⟨kind, length, -, ho⟩
  · left
    rw [ho]
    exact ⟨rfl, _, rfl, htokens⟩
  · right
    rw [ho]
    exact ⟨_, rfl, rfl, htokens⟩

/-! ## Lists of scripts -/

/-- The first script is read to its end, and the others follow; or it fails, and ends the run. -/
theorem tokenize_cons_cases (r : Resolver) (s : Script) (ss : List Script) :
    ((r.tokenize [s]).value.IsWhole s ∧
      (r.tokenize (s :: ss)).value = (r.tokenize [s]).value.append (r.tokenize ss).value) ∨
    ∃ e, (r.tokenize [s]).value.IsBroken s e ∧
      (r.tokenize (s :: ss)).value = (r.tokenize [s]).value := by
  rw [value_tokenize_cons r s ss]
  rcases r.isWhole_or_isBroken s with hs | ⟨e, hs⟩
  · exact .inl ⟨hs, if_pos hs.isOk⟩
  · have hok : ¬(r.tokenize [s]).value.isOk = true := by simp [hs.isOk]
    exact .inr ⟨e, hs, if_neg hok⟩

/-- **Scripts behind others** add their outcome to that of the others, unless these failed. -/
theorem value_tokenize_lists (r : Resolver) (ss ss' : List Script) :
    (r.tokenize (ss ++ ss')).value =
      if (r.tokenize ss).value.isOk then (r.tokenize ss).value.append (r.tokenize ss').value
      else (r.tokenize ss).value := by
  induction ss with
  | nil => rfl
  | cons s ss ih =>
    rw [List.cons_append, value_tokenize_cons, value_tokenize_cons r s ss, ih]
    cases hs : (r.tokenize [s]).value.isOk with
    | false => simp [hs]
    | true =>
      have hboth : ((r.tokenize [s]).value.append (r.tokenize ss).value).isOk =
          (r.tokenize ss).value.isOk := rfl
      rw [if_pos rfl, if_pos rfl, hboth]
      cases (r.tokenize ss).value.isOk with
      | false => rfl
      | true => simp [Outcome.append]

/-- What the scripts have alone, one block behind the other. -/
def blocks (r : Resolver) (ss : List Script) : List Token :=
  ss.flatMap fun s => (r.tokenize [s]).value.tokens

/-- The outcome `o` of the scripts `ss`, in blocks. -/
inductive InBlocks (r : Resolver) (ss : List Script) (o : Outcome) : Prop
  /-- Every script was read to its end. -/
  | whole : (∀ s ∈ ss, (r.tokenize [s]).value.IsWhole s) → o.tokens = r.blocks ss →
      o.error = none → o.finished = ss.length → InBlocks r ss o
  /-- The scripts before one that failed were read to their ends. -/
  | broken {before after : List Script} {s : Script} {e : LexicalError} :
      ss = before ++ s :: after → (∀ s' ∈ before, (r.tokenize [s']).value.IsWhole s') →
      (r.tokenize [s]).value.IsBroken s e →
      o.tokens = r.blocks before ++ (r.tokenize [s]).value.tokens → o.error = some e →
      o.finished = before.length → InBlocks r ss o

/-- **The blocks of a run.** -/
theorem inBlocks_tokenize (r : Resolver) (ss : List Script) :
    r.InBlocks ss (r.tokenize ss).value := by
  induction ss with
  | nil => exact .whole (List.forall_mem_nil _) rfl rfl rfl
  | cons s ss ih =>
    rcases r.tokenize_cons_cases s ss with ⟨hs, hcons⟩ | ⟨e, hs, hcons⟩
    · have hfinished := Outcome.finished_append (r.tokenize [s]).value (r.tokenize ss).value
      rw [hs.finished] at hfinished
      rw [hcons]
      cases ih with
      | whole hwhole htokens herror hcount =>
        refine .whole (List.forall_mem_cons.2 ⟨hs, hwhole⟩) ?_ herror ?_
        · rw [Outcome.append, htokens]
          rfl
        · rw [hfinished, hcount, List.length_cons, Nat.add_comm]
      | @broken before after s' e hss hwhole hbroken htokens herror hcount =>
        have hcons : s :: ss = (s :: before) ++ s' :: after := by rw [hss, List.cons_append]
        refine .broken hcons (List.forall_mem_cons.2 ⟨hs, hwhole⟩) hbroken ?_ herror ?_
        · rw [Outcome.append, htokens, ← List.append_assoc]
          rfl
        · rw [hfinished, hcount, List.length_cons, Nat.add_comm]
    · rw [hcons]
      exact .broken (List.nil_append (s :: ss)).symm (List.forall_mem_nil _) hs rfl hs.error
        hs.finished

/-- **The place of a token**: the script there has the token alone. -/
theorem exists_of_mem_numbered {ss : List Script} {n k : Nat} {a : Token}
    (h : (k, a) ∈ Outcome.numbered n (r.tokenize ss).value.tokens) :
    ∃ i s, k = n + i ∧ ss[i]? = some s ∧ a ∈ (r.tokenize [s]).value.tokens := by
  induction ss generalizing n with
  | nil => cases h
  | cons s ss ih =>
    rcases r.tokenize_cons_cases s ss with ⟨hs, hcons⟩ | ⟨e, hs, hcons⟩
    · rw [hcons, Outcome.append, hs.numbered_append] at h
      rcases List.mem_append.1 h with h | h
      · obtain ⟨b, hb, hba⟩ := List.mem_map.1 h
        obtain ⟨rfl, rfl⟩ := Prod.mk.inj hba
        exact ⟨0, s, rfl, rfl, hb⟩
      · obtain ⟨i, s', rfl, hs', ha⟩ := ih h
        exact ⟨i + 1, s', by omega, hs', ha⟩
    · rw [hcons, hs.numbered_eq] at h
      obtain ⟨b, hb, hba⟩ := List.mem_map.1 h
      obtain ⟨rfl, rfl⟩ := Prod.mk.inj hba
      exact ⟨0, s, rfl, rfl, hb⟩

end Resolver

/-- **Several scripts are tokenized one by one.** Scripts behind others add their outcome, unless
the others failed. The outcome is one block for each script in order, up to one that fails; every
token stands in the block of its place in the list, and no place behind the failing one has any. -/
theorem tokenize_inBlocks (r : Resolver) (ss ss' : List Script) :
    ((r.tokenize (ss ++ ss')).value =
      if (r.tokenize ss).value.error.isSome then (r.tokenize ss).value
      else ⟨(r.tokenize ss).value.tokens ++ (r.tokenize ss').value.tokens,
        (r.tokenize ss').value.error⟩) ∧
    r.InBlocks ss (r.tokenize ss).value ∧
    ∀ place a, (place, a) ∈ Outcome.numbered 0 (r.tokenize ss).value.tokens →
      place ≤ (r.tokenize ss).value.finished ∧
      ∃ s, ss[place]? = some s ∧ a.script = s ∧ a ∈ (r.tokenize [s]).value.tokens := by
  refine ⟨?_, r.inBlocks_tokenize ss, ?_⟩
  · rw [Resolver.value_tokenize_lists, Outcome.isOk]
    cases (r.tokenize ss).value.error <;> rfl
  · intro place a ha
    obtain ⟨i, s, hplace, hs, hmem⟩ := Resolver.exists_of_mem_numbered ha
    obtain rfl : place = i := by omega
    have hle := Outcome.le_of_mem_numbered ha
    rw [Nat.zero_add] at hle
    exact ⟨hle, s, hs, Resolver.script_of_mem_tokenize hmem, hmem⟩

/-- The second of two equal scripts is not confused with the first, and the third is not read. -/
example :
    let r : Resolver := ⟨['D'], (MemoryFiles.ofList []).fileSystem⟩
    let word : Script := ⟨⟨['m']⟩, ['x']⟩
    let quotation : Script := ⟨⟨['n']⟩, ['y', '\'']⟩
    (Outcome.numbered 0 (r.tokenize [word, word, quotation, word]).value.tokens).map (·.1) =
      [0, 0, 1, 1, 2] := by decide +kernel

end ScriptLexer
