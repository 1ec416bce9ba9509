import ScriptLexer.Proofs.Lexeme.Defect
import ScriptLexer.Proofs.Reference.Lookup
import ScriptLexer.Proofs.Tokens.Span

/-!
# Where a run stops

Tokenizing stops for two reasons: the text starts with a defect, or with a whole reference that
stands for nothing (`Resolver.stops_iff`). The error of a run is such a stop, and everything in front
of it was tokenized (`Resolver.exists_stop`).

`Resolver.mem_tokenize` and `Resolver.exists_failing` bring runs over several scripts down to runs
over one of them: the first error ends the run, so every token and the error come from a script that
would have had them alone.
-/

namespace ScriptLexer

/-- The text of the script from the place of the error on. -/
def LexicalError.source (e : LexicalError) : Text := e.script.text.drop e.offset

theorem LexicalError.source_eq {s : Script} {u t : Text} {kind : ErrorKind} {length : Option Nat}
    (hs : s.text = u ++ t) : LexicalError.source ⟨kind, s, u.length, length⟩ = t := by
  rw [source, hs, List.drop_left]

namespace Resolver

variable {r : Resolver} {s : Script}

/-- **A run stops at a defect, or at a reference that stands for nothing.** -/
theorem stops_iff {folder : Path} {t : Text} {kind : ErrorKind} {length : Option Nat} :
    r.Stops folder t kind length ↔ Defect t ⟨kind, length⟩ ∨
      ∃ path rest, t = '<' :: (path ++ '>' :: rest) ∧ (∀ c ∈ path, isPathCharacter c = true) ∧
        (r.resolve (referencePath folder path)).value = .error kind ∧ length = none := by
  constructor
  · intro h
    cases h with
    | fault _ hf => exact .inl (Start.read_eq_fault_iff.1 hf)
    | @unresolved path rest kind hw hkind =>
      exact .inr ⟨path, rest, by simp [Lexeme.text], hw, hkind, rfl⟩
  · rintro (h | ⟨path, rest, rfl, hpath, hkind, rfl⟩)
    · cases t with
      | nil => cases h
      | cons c t =>
        have hc : isLayout c = false := by
          rcases h.isQuote_or_eq with hq | rfl
          · exact isLayout_of_isQuote hq
          · decide
        exact .fault hc (Start.read_eq_fault_iff.2 h)
    · have hstop : r.Stops folder ((Lexeme.reference path).text ++ rest) kind none :=
        .unresolved hpath hkind
      simpa [Lexeme.text] using hstop

theorem Stops.ne_nil {folder : Path} {t : Text} {kind : ErrorKind} {length : Option Nat}
    (h : r.Stops folder t kind length) : t ≠ [] := by
  rcases stops_iff.1 h with h | ⟨path, rest, rfl, -⟩
  · cases h <;> simp
  · simp

/-! ## One script -/

/-- **The error of a script is where its run stops**, and the tokens are those in front of it. -/
theorem exists_stop {e : LexicalError} (he : (r.tokenize [s]).value.error = some e) :
    e.script = s ∧ ∃ ls, s.text = written ls ++ e.source ∧ (written ls).length = e.offset ∧
      r.Reaches s.folder (r.content s.folder) ls e.source ∧
      r.Stops s.folder e.source e.kind e.length ∧
      (r.tokenize [s]).value.tokens = tokensAt (r.content s.folder) s 0 ls := by
  obtain ⟨ls, rest, hs, hreach, hend⟩ := r.exists_run s
  rcases hend with ⟨-, ho⟩ | ⟨kind, length, hstop, ho⟩
  · rw [ho] at he
    cases he
  · rw [ho] at he ⊢
    obtain rfl := Option.some.inj he
    rw [LexicalError.source_eq hs]
    exact ⟨rfl, ls, hs, rfl, hreach, hstop, rfl⟩

theorem eq_endOfFile_or_mem_tokensAt {a : Token} (ha : a ∈ (r.tokenize [s]).value.tokens) :
    a = Token.endOfFile s ∨ ∃ ls rest, s.text = written ls ++ rest ∧
      r.Reaches s.folder (r.content s.folder) ls rest ∧
      a ∈ tokensAt (r.content s.folder) s 0 ls := by
  obtain ⟨ls, rest, hs, hreach, hend⟩ := r.exists_run s
  rcases hend with ⟨-, ho⟩ | ⟨kind, length, -, ho⟩
  · rw [ho] at ha
    rcases List.mem_append.1 ha with ha | ha
    · exact .inr ⟨ls, rest, hs, hreach, ha⟩
    · exact .inl (List.mem_singleton.1 ha)
  · rw [ho] at ha
    exact .inr ⟨ls, rest, hs, hreach, ha⟩

theorem script_of_mem_tokenize {a : Token} (ha : a ∈ (r.tokenize [s]).value.tokens) :
    a.script = s := by
  rcases eq_endOfFile_or_mem_tokensAt ha with rfl | ⟨ls, rest, -, -, ha⟩
  · rfl
  · exact script_of_mem_tokensAt ha

/-! ## Several scripts -/

theorem accesses_tokenize_singleton (r : Resolver) (s : Script) :
    (r.tokenize [s]).accesses = (r.tokensFrom s 0 s.text).accesses := by
  have h : r.tokenizeScript s = r.tokensFrom s 0 s.text := rfl
  rw [tokenize, Traced.accesses_bind, h]
  cases (r.tokensFrom s 0 s.text).value.isOk <;> simp [tokenize]

theorem value_tokenize_cons (r : Resolver) (s : Script) (ss : List Script) :
    (r.tokenize (s :: ss)).value =
      if (r.tokenize [s]).value.isOk then (r.tokenize [s]).value.append (r.tokenize ss).value
      else (r.tokenize [s]).value := by
  have h : r.tokenizeScript s = r.tokensFrom s 0 s.text := rfl
  rw [value_tokenize_singleton, tokenize, Traced.value_bind, h]
  cases (r.tokensFrom s 0 s.text).value.isOk <;> rfl

theorem accesses_tokenize_cons (r : Resolver) (s : Script) (ss : List Script) :
    (r.tokenize (s :: ss)).accesses = (r.tokenize [s]).accesses ++
      if (r.tokenize [s]).value.isOk then (r.tokenize ss).accesses else [] := by
  have h : r.tokenizeScript s = r.tokensFrom s 0 s.text := rfl
  rw [accesses_tokenize_singleton, value_tokenize_singleton, tokenize, Traced.accesses_bind, h]
  cases (r.tokensFrom s 0 s.text).value.isOk <;> simp

/-- **Every token comes from a script that has it alone.** -/
theorem mem_tokenize {ss : List Script} {a : Token} (ha : a ∈ (r.tokenize ss).value.tokens) :
    ∃ s ∈ ss, a ∈ (r.tokenize [s]).value.tokens := by
  induction ss with
  | nil => cases ha
  | cons s ss ih =>
    rw [value_tokenize_cons] at ha
    split at ha
    · rcases List.mem_append.1 ha with ha | ha
      · exact ⟨s, List.mem_cons_self, ha⟩
      · obtain ⟨s', hs', ha⟩ := ih ha
        exact ⟨s', List.mem_cons_of_mem s hs', ha⟩
    · exact ⟨s, List.mem_cons_self, ha⟩

/-- **The error comes from a script that has it alone.** -/
theorem exists_failing {ss : List Script} {e : LexicalError}
    (he : (r.tokenize ss).value.error = some e) :
    ∃ s ∈ ss, (r.tokenize [s]).value.error = some e := by
  induction ss with
  | nil => cases he
  | cons s ss ih =>
    rw [value_tokenize_cons] at he
    split at he
    · obtain ⟨s', hs', he⟩ := ih he
      exact ⟨s', List.mem_cons_of_mem s hs', he⟩
    · exact ⟨s, List.mem_cons_self, he⟩

end Resolver

end ScriptLexer
