import ScriptLexer.Proofs.Tokens.Run

/-!
# Spans of tokens

Where the tokens of lexemes in a row stand: each inside the lexemes (`bounds_of_mem_tokensAt`), one
behind the other (`pairwise_tokensAt`), and none of them an end of a file.

`Outcome.lexical` are the tokens of an outcome that cover characters, and `Outcome.scanned` is how
far the script was read.
-/

namespace ScriptLexer

namespace Outcome

/-- The tokens other than ends of files. -/
def lexical (o : Outcome) : List Token := o.tokens.filter fun a => !a.isEndOfFile

/-- How many characters of the script were read: all of them, or those before the error. -/
def scanned (o : Outcome) (s : Script) : Nat :=
  match o.error with
  | none => s.length
  | some e => e.offset

theorem scanned_of_isOk {o : Outcome} {s : Script} (h : o.isOk = true) : o.scanned s = s.length := by
  have herror : o.error = none := by simpa [isOk] using h
  rw [scanned, herror]

end Outcome

section tokensAt

variable {content : Text → Text} {s : Script} {n : Nat} {ls : List Lexeme} {a : Token}

theorem Lexeme.length_pos {l : Lexeme} (h : l.WellFormed) : 0 < l.length :=
  List.length_pos_iff.2 (text_ne_nil h)

/-- **A token covers at least one character, and none outside the lexemes.** -/
theorem bounds_of_mem_tokensAt (hw : ∀ l ∈ ls, l.WellFormed) (ha : a ∈ tokensAt content s n ls) :
    n ≤ a.start ∧ a.start < a.stop ∧ a.stop ≤ n + (written ls).length := by
  obtain ⟨ls₁, l, ls₂, kind, value, rfl, -, rfl⟩ := mem_tokensAt.1 ha
  have hpos : 0 < l.length := Lexeme.length_pos (hw l (by simp))
  have hlen : (written (ls₁ ++ l :: ls₂)).length =
      (written ls₁).length + (l.length + (written ls₂).length) := by
    rw [written_append, List.length_append, length_written_cons]
  dsimp only
  omega

/-- **The tokens stand one behind the other.** -/
theorem pairwise_tokensAt (hw : ∀ l ∈ ls, l.WellFormed) :
    (tokensAt content s n ls).Pairwise fun a b => a.stop ≤ b.start := by
  induction ls generalizing n with
  | nil => exact .nil
  | cons l ls ih =>
    have hls : ∀ l' ∈ ls, l'.WellFormed := by
      intro l' hl'
      exact hw l' (List.mem_cons_of_mem _ hl')
    rw [tokensAt]
    apply List.pairwise_append.2
    refine ⟨?_, ih hls, ?_⟩
    · cases l.token? content s n <;> simp
    · intro a ha b hb
      obtain ⟨kind, value, -, rfl⟩ := Lexeme.token?_eq_some.1 (Option.mem_toList.1 ha)
      exact (bounds_of_mem_tokensAt hls hb).1

theorem script_of_mem_tokensAt (ha : a ∈ tokensAt content s n ls) : a.script = s := by
  obtain ⟨ls₁, l, ls₂, kind, value, -, -, rfl⟩ := mem_tokensAt.1 ha
  rfl

theorem isEndOfFile_of_mem_tokensAt (ha : a ∈ tokensAt content s n ls) : a.isEndOfFile = false := by
  obtain ⟨ls₁, l, ls₂, kind, value, -, hm, rfl⟩ := mem_tokensAt.1 ha
  cases l <;> simp only [Lexeme.meaning, Option.some.injEq, Prod.mk.injEq, reduceCtorEq] at hm <;>
    obtain ⟨rfl, -⟩ := hm <;> rfl

theorem filter_tokensAt :
    (tokensAt content s n ls).filter (fun a => !a.isEndOfFile) = tokensAt content s n ls := by
  apply List.filter_eq_self.2
  intro a ha
  rw [isEndOfFile_of_mem_tokensAt ha]
  rfl

end tokensAt

/-- **No token stands before the text it comes from**, if that is the end of the script. -/
theorem Resolver.le_start_of_mem_tokensFrom {r : Resolver} {s : Script} {n : Nat} {t : Text}
    (hlen : n + t.length = s.length) :
    ∀ a ∈ (r.tokensFrom s n t).value.tokens, n ≤ a.start := by
  obtain ⟨ls, rest, rfl, hreach, hend⟩ := r.exists_reaches s.folder t
  have hw : ∀ l ∈ ls, l.WellFormed := hreach.cut.wellFormed
  rw [hreach.value_tokensFrom]
  intro a ha
  rcases List.mem_append.1 ha with ha | ha
  · exact (bounds_of_mem_tokensAt hw ha).1
  · rcases hend with rfl | ⟨kind, length, hstop⟩
    · rw [tokensFrom_nil] at ha
      obtain rfl := List.mem_singleton.1 ha
      exact Nat.le.intro hlen
    · rw [hstop.value_tokensFrom] at ha
      cases ha

theorem Resolver.exists_scanned (r : Resolver) (s : Script) :
    ∃ ls rest, s.text = written ls ++ rest ∧ r.Reaches s.folder (r.content s.folder) ls rest ∧
      (r.tokenize [s]).value.lexical = tokensAt (r.content s.folder) s 0 ls ∧
      (r.tokenize [s]).value.scanned s = (written ls).length ∧
      (r.tokenize [s]).value.tokens = (r.tokenize [s]).value.lexical ++
        if (r.tokenize [s]).value.isOk then [Token.endOfFile s] else [] := by
  obtain ⟨ls, rest, ht, hreach, hend⟩ := r.exists_run s
  refine ⟨ls, rest, ht, hreach, ?_⟩
  rcases hend with ⟨rfl, ho⟩ | ⟨kind, length, -, ho⟩
  · have hlex : (r.tokenize [s]).value.lexical = tokensAt (r.content s.folder) s 0 ls := by
      rw [ho, Outcome.lexical, List.filter_append, filter_tokensAt]
      simp [Token.isEndOfFile, Token.endOfFile]
    rw [hlex, ho]
    exact ⟨rfl, by rw [Outcome.scanned, Script.length, ht, List.append_nil], rfl⟩
  · have hlex : (r.tokenize [s]).value.lexical = tokensAt (r.content s.folder) s 0 ls := by
      rw [ho, Outcome.lexical, filter_tokensAt]
    rw [hlex, ho]
    exact ⟨rfl, rfl, (List.append_nil _).symm⟩

end ScriptLexer
