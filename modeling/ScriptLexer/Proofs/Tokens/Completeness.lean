import Mathlib.Data.List.Chain
import ScriptLexer.Files.Memory
import ScriptLexer.Proofs.Tokens.Span

/-!
# Writing a script and reading it back

Lexemes in a row can be written as a script when each can stand in one and none runs into the next:
no word is followed by a word, no quoted text by a quote of its own kind, no slash by a slash, and a
comment by nothing but the end of its line. `Writable` says so about neighbours alone.

Tokenizing such a script finds these lexemes again, layout and comments left out, with the spans
that adding up their lengths gives.

Main result: `tokenize_written`.
-/

namespace ScriptLexer

namespace Lexeme

/-- The second lexeme can stand right behind the first without being taken for a part of it. -/
def MayPrecede : Lexeme → Lexeme → Prop
  | word _, word _ => False
  | quoted q _, l => l.text.head? ≠ some q
  | special c, l => c = '/' → l.text.head? ≠ some '/'
  | comment _, l => ∃ c, l.text.head? = some c ∧ isLineEnd c = true
  | _, _ => True

theorem isWord_of_head? {l : Lexeme} (hw : l.WellFormed) (hl : ∀ run, l ≠ .word run) :
    ∀ c ∈ l.text.head?, isWord c = false := by
  intro c hc
  cases l with
  | blank run => exact isWord_of_isLayout (hw.2 c (List.mem_of_head? hc))
  | comment body =>
    obtain rfl : '/' = c := Option.some.inj hc
    decide +kernel
  | word run => exact absurd rfl (hl run)
  | quoted q value =>
    obtain rfl : q = c := Option.some.inj hc
    exact isWord_of_isQuote hw
  | reference path =>
    obtain rfl : '<' = c := Option.some.inj hc
    decide +kernel
  | special d =>
    obtain rfl : d = c := Option.some.inj hc
    exact hw.2.1

/-- **Neighbours do not run into each other.** Of what follows a lexeme, only the first character
counts, and that belongs to the next lexeme. -/
theorem MayPrecede.endsBefore {l l' : Lexeme} (h : l.MayPrecede l') (hw : l'.WellFormed) (t : Text) :
    l.EndsBefore (l'.text ++ t) := by
  apply EndsBefore.of_head? (t := l'.text)
  · cases l with
    | blank run => trivial
    | comment body =>
      obtain ⟨c, hc, hend⟩ := h
      intro d hd
      obtain rfl := Option.some.inj (hc.symm.trans hd)
      exact hend
    | word run =>
      apply isWord_of_head? hw
      intro run' hl'
      rw [hl'] at h
      exact h
    | quoted q value => exact h
    | reference path => trivial
    | special c => exact h
  · obtain ⟨c, rest, hc⟩ := List.exists_cons_of_ne_nil (text_ne_nil hw)
    rw [hc]
    rfl

end Lexeme

/-- The lexemes can be written one after the other as a script. -/
structure Writable (ls : List Lexeme) : Prop where
  wellFormed : ∀ l ∈ ls, l.WellFormed
  neighbours : ls.IsChain Lexeme.MayPrecede

theorem Writable.cut {ls : List Lexeme} (h : Writable ls) : Cut [] ls := by
  induction ls with
  | nil => trivial
  | cons l ls ih =>
    have hls : Writable ls := by
      refine ⟨?_, h.neighbours.tail⟩
      intro l' hl'
      exact h.wellFormed l' (List.mem_cons_of_mem _ hl')
    refine ⟨h.wellFormed l List.mem_cons_self, ?_, ih hls⟩
    cases ls with
    | nil => simp
    | cons l' ls =>
      have hnext : l.MayPrecede l' := (List.isChain_cons_cons.1 h.neighbours).1
      have hw : l'.WellFormed := h.wellFormed l' (by simp)
      rw [written_cons, List.append_assoc]
      exact hnext.endsBefore hw _

/-- **Tokenizing is complete.** A script written from lexemes that do not run into each other, whose
references are found, has exactly the tokens of these lexemes and the end of the file. -/
theorem tokenize_written (r : Resolver) (path : Path) (content : Text → Text) {ls : List Lexeme}
    (hw : Writable ls)
    (hf : ∀ p, .reference p ∈ ls →
      (r.resolve (referencePath path.folder p)).value = .ok (content p)) :
    (r.tokenize [⟨path, written ls⟩]).value =
      ⟨tokensAt content ⟨path, written ls⟩ 0 ls ++ [Token.endOfFile ⟨path, written ls⟩], none⟩ := by
  have hreach : r.Reaches path.folder content ls [] := by
    refine ⟨hw.cut, ?_⟩
    intro l hl p hp
    subst hp
    exact hf p hl
  have hrun := hreach.value_tokensFrom (s := ⟨path, written ls⟩) 0
  rw [Resolver.value_tokenize_singleton]
  rw [List.append_nil] at hrun
  rw [hrun, Resolver.tokensFrom_nil]
  rfl

/-- Pieces of every sort: a word, a quoted text, a comment with its line end, a reference between two
slashes, and two words with a space between them. -/
def samplePieces : List Lexeme :=
  [.word ['x'], .quoted '\'' ['a', '\'', 'b'], .comment ['\'', '<'], .blank ['\n'], .special '/',
    .reference ['f'], .special '/', .word ['y'], .blank [' '], .word ['z']]

def sampleResolver : Resolver :=
  ⟨['D'], (MemoryFiles.ofList [(⟨['d', '/', 'f']⟩, ['A'])]).fileSystem⟩

theorem writable_samplePieces : Writable samplePieces where
  wellFormed := by
    simp only [samplePieces, List.forall_mem_cons, Lexeme.WellFormed, List.not_mem_nil,
      IsEmpty.forall_iff, implies_true]
    decide +kernel
  neighbours := by
    simp only [samplePieces, List.isChain_cons_cons, List.isChain_singleton, Lexeme.MayPrecede,
      Lexeme.text, List.head?_cons, Option.some.injEq, exists_eq_left']
    decide

theorem tokenize_written_samplePieces :
    Writable samplePieces ∧
      (∀ p, .reference p ∈ samplePieces →
        (sampleResolver.resolve (referencePath ⟨['d']⟩ p)).value = .ok ['A']) ∧
      (sampleResolver.tokenize [⟨⟨['d', '/', 'm']⟩, written samplePieces⟩]).value =
        ⟨tokensAt (fun _ => ['A']) ⟨⟨['d', '/', 'm']⟩, written samplePieces⟩ 0 samplePieces ++
          [Token.endOfFile ⟨⟨['d', '/', 'm']⟩, written samplePieces⟩], none⟩ := by
  have hf : ∀ p, .reference p ∈ samplePieces →
      (sampleResolver.resolve (referencePath ⟨['d']⟩ p)).value = .ok ['A'] := by
    intro p hp
    obtain rfl : p = ['f'] := by simpa [samplePieces] using hp
    decide +kernel
  refine ⟨writable_samplePieces, hf, ?_⟩
  exact tokenize_written sampleResolver ⟨['d', '/', 'm']⟩ (fun _ => ['A']) writable_samplePieces hf

end ScriptLexer
