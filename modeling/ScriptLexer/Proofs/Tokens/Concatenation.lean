import ScriptLexer.Files.Memory
import ScriptLexer.Proofs.Tokens.Moved
import ScriptLexer.Proofs.Tokens.Span

/-!
# Scripts one after the other

Two texts with a line end between them are tokenized as if each stood alone. However the first one
ends, in a word, a closing quote, a slash or a comment, its last lexeme also ends before a line end;
and what the second one starts with is read as it is at the start of a script.

A `Filler` may stand between the two: layout, and line comments together with the ends of their
lines. It has no tokens, and leaves the text behind it alone.

Main result: `tokenize_append`.
-/

namespace ScriptLexer

/-- Layout and line comments, each comment with the end of its line. -/
inductive Filler : Text → Prop
  | nil : Filler []
  | layout {c : Char} {f : Text} : isLayout c = true → Filler f → Filler (c :: f)
  | comment {body f : Text} {c : Char} : (∀ d ∈ body, isLineEnd d = false) →
      isLineEnd c = true → Filler f → Filler ('/' :: '/' :: (body ++ c :: f))

theorem Filler.exists_written {f : Text} (h : Filler f) (t : Text) :
    ∃ ls, f = written ls ∧ Cut t ls ∧ ∀ l ∈ ls, l.isFiller = true := by
  induction h with
  | nil =>
    refine ⟨[], rfl, trivial, ?_⟩
    intro l hl
    cases hl
  | @layout c f hc _ ih =>
    obtain ⟨ls, rfl, hcut, hfill⟩ := ih
    have hw : (Lexeme.blank [c]).WellFormed := by simp [Lexeme.WellFormed, hc]
    refine ⟨.blank [c] :: ls, rfl, ⟨hw, trivial, hcut⟩, ?_⟩
    intro l hl
    rcases List.mem_cons.1 hl with rfl | hl
    · rfl
    · exact hfill l hl
  | @comment body f c hbody hc _ ih =>
    obtain ⟨ls, rfl, hcut, hfill⟩ := ih
    have hw : (Lexeme.blank [c]).WellFormed := by
      simp [Lexeme.WellFormed, isLayout_of_isLineEnd hc]
    have hcomment : (Lexeme.comment body).WellFormed := hbody
    have hend : (Lexeme.comment body).EndsBefore (written (.blank [c] :: ls) ++ t) :=
      Lexeme.endsBefore_of_isLineEnd hcomment hc _
    refine ⟨.comment body :: .blank [c] :: ls, rfl, ⟨hbody, hend, hw, trivial, hcut⟩, ?_⟩
    intro l hl
    rcases List.mem_cons.1 hl with rfl | hl
    · rfl
    rcases List.mem_cons.1 hl with rfl | hl
    · rfl
    · exact hfill l hl

theorem tokensAt_of_isFiller {content : Text → Text} {s : Script} {n : Nat} {ls : List Lexeme}
    (h : ∀ l ∈ ls, l.isFiller = true) : tokensAt content s n ls = [] := by
  apply List.eq_nil_iff_forall_not_mem.2
  intro a ha
  obtain ⟨ls₁, l, ls₂, kind, value, rfl, hm, -⟩ := mem_tokensAt.1 ha
  have hl : l.isFiller = true := h l (by simp)
  cases l with
  | blank | comment => cases hm
  | _ => cases hl

/-- A text that is tokenized without error is written from the lexemes of its tokens. -/
theorem exists_reaches_of_isOk {r : Resolver} {s : Script} (h : (r.tokenize [s]).value.isOk = true) :
    ∃ ls, s.text = written ls ∧ r.Reaches s.folder (r.content s.folder) ls [] ∧
      (r.tokenize [s]).value.lexical = tokensAt (r.content s.folder) s 0 ls := by
  obtain ⟨ls, rest, hs, hreach, hlex, hscan, -⟩ := r.exists_scanned s
  have hall : s.text.length = (written ls).length := by
    rw [← hscan, Outcome.scanned_of_isOk h, Script.length]
  have hrest : rest = [] := by
    rw [hs, List.length_append] at hall
    exact List.length_eq_zero_iff.1 (by omega)
  subst hrest
  exact ⟨ls, by rw [hs, List.append_nil], hreach, hlex⟩

/-- **Tokenizing two texts with a line end between them is tokenizing one, then the other.** The first
has to be free of errors; an error of the second is found where it then stands. -/
theorem tokenize_append (r : Resolver) (path : Path) (u f v : Text)
    (hu : (r.tokenize [⟨path, u⟩]).value.isOk = true) (hf : Filler f)
    (hc : ∃ c rest, f = c :: rest ∧ isLineEnd c = true) :
    (r.tokenize [⟨path, u ++ f ++ v⟩]).value =
      ((r.tokenize [⟨path, v⟩]).value.movedTo ⟨path, u ++ f ++ v⟩ (u.length + f.length)).prepend
        ((r.tokenize [⟨path, u⟩]).value.lexical.map (Token.movedTo ⟨path, u ++ f ++ v⟩ 0)) := by
  obtain ⟨ls, hls, hreach, hlex⟩ := exists_reaches_of_isOk hu
  obtain ⟨fs, hfs, hcut, hfill⟩ := hf.exists_written v
  obtain ⟨c, rest, hcons, hend⟩ := hc
  have hlsf : r.Reaches path.folder (r.content path.folder) (ls ++ fs) v := by
    apply Resolver.Reaches.append_iff.2
    refine ⟨⟨?_, hreach.finds⟩, ⟨hcut, ?_⟩⟩
    · rw [← hfs, hcons]
      exact hreach.cut.of_isLineEnd hend (rest ++ v)
    · intro l hl p hp
      subst hp
      cases hfill _ hl
  have htext : u ++ f ++ v = written (ls ++ fs) ++ v := by
    rw [written_append, ← hfs]
    exact congrArg (· ++ f ++ v) hls
  have hlen : (written (ls ++ fs)).length = u.length + f.length := by
    rw [written_append, List.length_append, ← hfs]
    exact congrArg (List.length · + f.length) hls.symm
  have hrun := hlsf.value_tokensFrom (s := ⟨path, u ++ f ++ v⟩) 0
  have hv : v.length + (u.length + f.length) = (u ++ f ++ v).length := by
    rw [List.length_append, List.length_append, Nat.add_comm]
  have hmoved := r.value_tokensFrom_movedTo ⟨path, v⟩ ⟨path, u ++ f ++ v⟩ rfl hv 0 v
  rw [← htext, hlen, Nat.zero_add, tokensAt_append, tokensAt_of_isFiller hfill, List.append_nil]
    at hrun
  rw [Resolver.value_tokenize_singleton, Resolver.value_tokenize_singleton r ⟨path, v⟩, hmoved, hrun,
    hlex, tokensAt_movedTo, Nat.zero_add]
  rfl

/-- The first text ends in a slash and the second one starts with one, in front of a quotation that
is not closed. -/
theorem tokenize_append_slashes :
    let r : Resolver := ⟨['D'], MemoryFiles.empty.fileSystem⟩
    let f : Text := ['\n', '/', '/', 'c', '\r', ' ']
    (r.tokenize [⟨⟨['m']⟩, ['x', '/']⟩]).value.isOk = true ∧ Filler f ∧
      (∃ c rest, f = c :: rest ∧ isLineEnd c = true) ∧
      (r.tokenize [⟨⟨['m']⟩, ['x', '/'] ++ f ++ ['/', '"']⟩]).value =
        ((r.tokenize [⟨⟨['m']⟩, ['/', '"']⟩]).value.movedTo
            ⟨⟨['m']⟩, ['x', '/'] ++ f ++ ['/', '"']⟩ 8).prepend
          ((r.tokenize [⟨⟨['m']⟩, ['x', '/']⟩]).value.lexical.map
            (Token.movedTo ⟨⟨['m']⟩, ['x', '/'] ++ f ++ ['/', '"']⟩ 0)) := by
  intro r f
  have hu : (r.tokenize [⟨⟨['m']⟩, ['x', '/']⟩]).value.isOk = true := by decide +kernel
  have hf : Filler f := by
    have hbody : ∀ d ∈ ['c'], isLineEnd d = false := by
      intro d hd
      obtain rfl := List.mem_singleton.1 hd
      decide
    exact .layout (by decide) (.comment hbody (by decide) (.layout (by decide) .nil))
  have hc : ∃ c rest, f = c :: rest ∧ isLineEnd c = true := ⟨'\n', _, rfl, by decide⟩
  exact ⟨hu, hf, hc, tokenize_append r ⟨['m']⟩ ['x', '/'] f ['/', '"'] hu hf hc⟩

end ScriptLexer
