import ScriptLexer.Files.Memory
import ScriptLexer.Proofs.Tokens.Moved
import ScriptLexer.Proofs.Tokens.Span

/-!
# Restarting at a token

A script can be cut where a token starts, or where the error is. Tokenizing the front alone gives the
tokens before the cut, and tokenizing the back alone gives the rest: no token depends on what stands
behind its end, and none on what stands before its start.

**The proof.** Such a place is the end of some lexemes of the run (`exists_reaches_of_boundary`). In
front, the run is over the same lexemes and nothing stands behind them; a cut allows that
(`Cut.nil`). Behind, the run goes on as it did in the whole script, and the text may as well stand in
a script of its own (`value_tokensFrom_movedTo`).

Main result: `tokenize_restart`.
-/

namespace ScriptLexer

/-- A token of the outcome starts at offset `p`, or its error is there. -/
def Outcome.Boundary (o : Outcome) (p : Nat) : Prop :=
  (∃ a ∈ o.tokens, a.start = p) ∨ ∃ e, o.error = some e ∧ e.offset = p

theorem exists_reaches_of_boundary {r : Resolver} {s : Script} {p : Nat}
    (hp : (r.tokenize [s]).value.Boundary p) :
    ∃ ls t, s.text = written ls ++ t ∧ r.Reaches s.folder (r.content s.folder) ls t ∧
      (written ls).length = p := by
  obtain ⟨ls, rest, hs, hreach, hend⟩ := r.exists_run s
  -- A token of the run starts behind the lexemes before its own.
  have hinside : ∀ a ∈ tokensAt (r.content s.folder) s 0 ls, ∃ ls₁ t, s.text = written ls₁ ++ t ∧
      r.Reaches s.folder (r.content s.folder) ls₁ t ∧ (written ls₁).length = a.start := by
    intro a ha
    obtain ⟨ls₁, l, ls₂, kind, value, rfl, -, rfl⟩ := mem_tokensAt.1 ha
    refine ⟨ls₁, written (l :: ls₂) ++ rest, ?_, (Resolver.Reaches.append_iff.1 hreach).1, ?_⟩
    · rw [hs, written_append, List.append_assoc]
    · exact (Nat.zero_add _).symm
  rcases hend with ⟨rfl, ho⟩ | ⟨kind, length, -, ho⟩
  · rw [ho] at hp
    rcases hp with ⟨a, ha, rfl⟩ | ⟨e, he, -⟩
    · rcases List.mem_append.1 ha with ha | ha
      · exact hinside a ha
      · obtain rfl := List.mem_singleton.1 ha
        refine ⟨ls, [], hs, hreach, ?_⟩
        rw [Token.endOfFile, Script.length, hs, List.append_nil]
    · cases he
  · rw [ho] at hp
    rcases hp with ⟨a, ha, rfl⟩ | ⟨e, he, rfl⟩
    · exact hinside a ha
    · obtain rfl := Option.some.inj he
      exact ⟨ls, rest, hs, hreach, rfl⟩

section Filter

variable {p : Nat} {front back : List Token}

theorem filter_lt_append (hf : ∀ a ∈ front, a.start < p) (hb : ∀ a ∈ back, p ≤ a.start) :
    (front ++ back).filter (fun a => a.start < p) = front := by
  have hfront : front.filter (fun a => a.start < p) = front := by
    apply List.filter_eq_self.2
    intro a ha
    exact decide_eq_true (hf a ha)
  have hback : back.filter (fun a => a.start < p) = [] := by
    apply List.filter_eq_nil_iff.2
    intro a ha
    simpa using hb a ha
  rw [List.filter_append, hfront, hback, List.append_nil]

theorem filter_le_append (hf : ∀ a ∈ front, a.start < p) (hb : ∀ a ∈ back, p ≤ a.start) :
    (front ++ back).filter (fun a => p ≤ a.start) = back := by
  have hfront : front.filter (fun a => p ≤ a.start) = [] := by
    apply List.filter_eq_nil_iff.2
    intro a ha
    simpa using hf a ha
  have hback : back.filter (fun a => p ≤ a.start) = back := by
    apply List.filter_eq_self.2
    intro a ha
    exact decide_eq_true (hb a ha)
  rw [List.filter_append, hfront, hback, List.nil_append]

end Filter

/-- **Tokenizing can restart at every token.** For every place where a token starts or the error is,
the script up to there has the tokens before it and no error, and the script from there on has the
other tokens and the error. -/
theorem tokenize_restart (r : Resolver) (s : Script) (p : Nat)
    (hp : (r.tokenize [s]).value.Boundary p) :
    (r.tokenize [⟨s.path, s.text.take p⟩]).value =
        ⟨((r.tokenize [s]).value.tokens.filter fun a => a.start < p).map
            (Token.movedTo ⟨s.path, s.text.take p⟩ 0) ++
          [⟨.endOfFile, [], ⟨s.path, s.text.take p⟩, p, p⟩], none⟩ ∧
      (r.tokenize [⟨s.path, s.text.drop p⟩]).value.movedTo s p =
        ⟨(r.tokenize [s]).value.tokens.filter fun a => p ≤ a.start,
          (r.tokenize [s]).value.error⟩ := by
  obtain ⟨ls, t, hs, hreach, rfl⟩ := exists_reaches_of_boundary hp
  have hw : ∀ l ∈ ls, l.WellFormed := hreach.cut.wellFormed
  have htake : s.text.take (written ls).length = written ls := by rw [hs, List.take_left]
  have hdrop : s.text.drop (written ls).length = t := by rw [hs, List.drop_left]
  have hlen : (written ls).length + t.length = s.length := by
    rw [Script.length, hs, List.length_append]
  have hwhole : (r.tokenize [s]).value =
      (r.tokensFrom s (written ls).length t).value.prepend
        (tokensAt (r.content s.folder) s 0 ls) := by
    rw [Resolver.value_tokenize_singleton, hs, hreach.value_tokensFrom 0, Nat.zero_add]
  have hbefore : ∀ a ∈ tokensAt (r.content s.folder) s 0 ls, a.start < (written ls).length := by
    intro a ha
    obtain ⟨-, hlt, hle⟩ := bounds_of_mem_tokensAt hw ha
    omega
  have hbehind := r.le_start_of_mem_tokensFrom hlen
  rw [htake, hdrop, hwhole]
  constructor
  · have hfront : r.Reaches (Script.folder ⟨s.path, written ls⟩) (r.content s.folder) ls [] :=
      ⟨hreach.cut.nil, hreach.finds⟩
    have hrun := hfront.value_tokensFrom 0
    rw [List.append_nil] at hrun
    rw [Resolver.value_tokenize_singleton, hrun, Resolver.tokensFrom_nil, Outcome.prepend,
      Outcome.prepend, filter_lt_append hbefore hbehind, tokensAt_movedTo]
    rfl
  · have hmoved := r.value_tokensFrom_movedTo ⟨s.path, t⟩ s rfl ((Nat.add_comm _ _).trans hlen) 0 t
    rw [Resolver.value_tokenize_singleton, hmoved, Nat.zero_add, Outcome.prepend,
      filter_le_append hbefore hbehind]

def openQuotation : Script := ⟨⟨['m']⟩, ['x', ' ', '\'', 'a']⟩

theorem tokenize_restart_openQuotation :
    let r : Resolver := ⟨['D'], MemoryFiles.empty.fileSystem⟩
    (r.tokenize [openQuotation]).value.Boundary 2 ∧
      (r.tokenize [⟨⟨['m']⟩, ['x', ' ']⟩]).value =
        ⟨((r.tokenize [openQuotation]).value.tokens.filter fun a => a.start < 2).map
            (Token.movedTo ⟨⟨['m']⟩, ['x', ' ']⟩ 0) ++
          [⟨.endOfFile, [], ⟨⟨['m']⟩, ['x', ' ']⟩, 2, 2⟩], none⟩ ∧
      (r.tokenize [⟨⟨['m']⟩, ['\'', 'a']⟩]).value.movedTo openQuotation 2 =
        ⟨(r.tokenize [openQuotation]).value.tokens.filter fun a => 2 ≤ a.start,
          (r.tokenize [openQuotation]).value.error⟩ := by
  intro r
  have herror : (r.tokenize [openQuotation]).value.error =
      some ⟨.unterminatedQuote '\'', openQuotation, 2, none⟩ := by
    decide +kernel
  have hp : (r.tokenize [openQuotation]).value.Boundary 2 := .inr ⟨_, herror, rfl⟩
  exact ⟨hp, tokenize_restart r openQuotation 2 hp⟩

end ScriptLexer
