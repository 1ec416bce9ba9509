import Mathlib.Data.List.Forall2
import ScriptLexer.Files.Memory
import ScriptLexer.Proofs.Lexeme.Cut
import ScriptLexer.Tokenizer

/-!
# Files are opaque

What a referenced file holds becomes the value of one token and nothing else.

**The statement** (`tokenize_alike`). Take two file systems that differ at most in the texts that
files hold (`FileSystem.SameUpToTexts`). Over the same scripts the two runs put the same questions to
their files, in the same order; their tokens have the same kinds, scripts and spans; and they end with
the same error, or both without one. Only the value of a token that starts with `<` can differ.

**The proof.** A script is split by its text alone, so both runs have the same lexemes. A lexeme means
the same in both, or it is a reference that stands for a text in both
(`Resolver.meaning_alike`). From there on it is one induction on the lexemes and one on the scripts;
the induction on the lexemes also keeps track of the text that is left, as that shows which tokens
start with `<`.
-/

namespace ScriptLexer

/-! ## What the two runs have in common -/

/-- The two file systems differ at most in the texts that files hold. -/
structure FileSystem.SameUpToTexts (fs fs' : FileSystem) : Prop where
  isFile : ∀ p, fs.isFile p = fs'.isFile p
  read : ∀ p, (∃ text text', fs.read p = .ok text ∧ fs'.read p = .ok text') ∨
    ∃ cause cause', fs.read p = .error cause ∧ fs'.read p = .error cause' ∧
      cause.message = cause'.message

/-- The two tokens differ at most in their values, and in these only if they start with `<`. -/
structure Token.Alike (a b : Token) : Prop where
  kind : a.kind = b.kind
  script : a.script = b.script
  start : a.start = b.start
  stop : a.stop = b.stop
  value : a.value ≠ b.value → a.script.text[a.start]? = some '<'

/-- The two outcomes differ at most in the values of tokens that start with `<`. -/
structure Outcome.Alike (o o' : Outcome) : Prop where
  tokens : List.Forall₂ Token.Alike o.tokens o'.tokens
  error : o.error = o'.error

/-- The two runs put the same questions to their files and have outcomes that are alike. -/
structure Traced.Alike (x y : Traced Outcome) : Prop where
  accesses : x.accesses = y.accesses
  value : x.value.Alike y.value

theorem Token.Alike.refl (a : Token) : a.Alike a := ⟨rfl, rfl, rfl, rfl, fun h => absurd rfl h⟩

namespace Outcome.Alike

theorem refl (o : Outcome) : o.Alike o :=
  ⟨List.forall₂_same.2 fun a _ => .refl a, rfl⟩

theorem cons {a b : Token} {o o' : Outcome} (hab : a.Alike b) (h : o.Alike o') :
    (o.cons a).Alike (o'.cons b) :=
  ⟨.cons hab h.tokens, h.error⟩

theorem append {o₁ o₁' o₂ o₂' : Outcome} (h₁ : o₁.Alike o₁') (h₂ : o₂.Alike o₂') :
    (o₁.append o₂).Alike (o₁'.append o₂') :=
  ⟨List.rel_append h₁.tokens h₂.tokens, h₂.error⟩

theorem isOk_eq {o o' : Outcome} (h : o.Alike o') : o.isOk = o'.isOk := by
  rw [isOk, isOk, h.error]

end Outcome.Alike

namespace Traced.Alike

theorem pure {o o' : Outcome} (h : o.Alike o') : Alike (Pure.pure o) (Pure.pure o') := ⟨rfl, h⟩

theorem bind {α β : Type} {x : Traced α} {y : Traced β} {f : α → Traced Outcome}
    {g : β → Traced Outcome} (hxy : x.accesses = y.accesses) (h : Alike (f x.value) (g y.value)) :
    Alike (x >>= f) (y >>= g) := by
  refine ⟨?_, h.value⟩
  rw [accesses_bind, accesses_bind, hxy, h.accesses]

theorem map {x y : Traced Outcome} {f g : Outcome → Outcome}
    (hfg : ∀ o o', o.Alike o' → (f o).Alike (g o')) (h : Alike x y) :
    Alike (f <$> x) (g <$> y) := by
  refine ⟨?_, hfg _ _ h.value⟩
  rw [accesses_map, accesses_map, h.accesses]

end Traced.Alike

/-! ## One lexeme -/

section

variable {fs fs' : FileSystem} (h : fs.SameUpToTexts fs') (dialect : Text)

include h

theorem FileSystem.SameUpToTexts.firstFile_eq (ps : List Path) :
    fs.firstFile ps = fs'.firstFile ps := by
  induction ps with
  | nil => rfl
  | cons p ps ih => rw [firstFile, firstFile, probe, probe, h.isFile p, ih]

namespace Resolver

/-- **A path is looked up in the same way**, and stands for a text in both runs or in neither. -/
theorem resolve_alike (p : Path) :
    ((⟨dialect, fs⟩ : Resolver).resolve p).accesses =
        ((⟨dialect, fs'⟩ : Resolver).resolve p).accesses ∧
      ((∃ text text', ((⟨dialect, fs⟩ : Resolver).resolve p).value = .ok text ∧
          ((⟨dialect, fs'⟩ : Resolver).resolve p).value = .ok text') ∨
        ((⟨dialect, fs⟩ : Resolver).resolve p).value =
          ((⟨dialect, fs'⟩ : Resolver).resolve p).value) := by
  unfold resolve
  cases candidates dialect p with
  | error kind => exact ⟨rfl, .inr rfl⟩
  | ok ps =>
    simp only [Traced.accesses_bind, Traced.value_bind, h.firstFile_eq]
    cases (fs'.firstFile ps).value with
    | none => exact ⟨rfl, .inr rfl⟩
    | some found =>
      rcases h.read found with ⟨text, text', ht, ht'⟩ | ⟨cause, cause', hc, hc', hmessage⟩
      · simp [FileSystem.fetch, ht, ht']
      · simp [FileSystem.fetch, hc, hc', hmessage]

/-- **A lexeme means the same in both runs**, or it is a reference with a text in each. -/
theorem meaning_alike (folder : Path) (l : Lexeme) :
    ((⟨dialect, fs⟩ : Resolver).meaning folder l).accesses =
        ((⟨dialect, fs'⟩ : Resolver).meaning folder l).accesses ∧
      (((⟨dialect, fs⟩ : Resolver).meaning folder l).value =
          ((⟨dialect, fs'⟩ : Resolver).meaning folder l).value ∨
        ∃ path text text', l = .reference path ∧
          ((⟨dialect, fs⟩ : Resolver).meaning folder l).value = .ok (some (.text, text)) ∧
          ((⟨dialect, fs'⟩ : Resolver).meaning folder l).value = .ok (some (.text, text'))) := by
  cases l with
  | reference path =>
    obtain ⟨haccesses, hvalue⟩ := resolve_alike h dialect (referencePath folder path)
    simp only [meaning, Traced.accesses_bind, Traced.value_bind, haccesses]
    rcases hvalue with ⟨text, text', ht, ht'⟩ | hvalue
    · rw [ht, ht']
      exact ⟨rfl, .inr ⟨path, text, text', rfl, rfl, rfl⟩⟩
    · rw [hvalue]
      exact ⟨rfl, .inl rfl⟩
  | _ => exact ⟨rfl, .inl rfl⟩

/-! ## Runs -/

/-- **The runs over the lexemes of a script are alike.** -/
theorem tokensOf_alike (s : Script) (fault : Option Fault) {n : Nat} {ls : List Lexeme} {rest : Text}
    (hs : s.text.drop n = written ls ++ rest) :
    ((⟨dialect, fs⟩ : Resolver).tokensOf s fault n ls).Alike
      ((⟨dialect, fs'⟩ : Resolver).tokensOf s fault n ls) := by
  induction ls generalizing n with
  | nil => cases fault <;> exact .pure (.refl _)
  | cons l ls ih =>
    have hnext : s.text.drop (n + l.length) = written ls ++ rest := by
      rw [← List.drop_drop, hs, written_cons, List.append_assoc, Lexeme.length, List.drop_left]
    obtain ⟨haccesses, hvalue⟩ := meaning_alike h dialect s.folder l
    rw [tokensOf, tokensOf]
    refine .bind haccesses ?_
    rcases hvalue with hvalue | ⟨path, text, text', rfl, ht, ht'⟩
    · rw [hvalue]
      cases ((⟨dialect, fs'⟩ : Resolver).meaning s.folder l).value with
      | error kind => exact .pure (.refl _)
      | ok m =>
        cases m with
        | none => exact ih hnext
        | some m => exact (ih hnext).map fun o o' => .cons (.refl _)
    · -- The two tokens start with the `<` of the reference.
      have hstart : s.text[n]? = some '<' := by
        rw [← List.head?_drop, hs]
        rfl
      rw [ht, ht']
      exact (ih hnext).map fun o o' => .cons ⟨rfl, rfl, rfl, rfl, fun _ => hstart⟩

theorem tokenizeScript_alike (s : Script) :
    ((⟨dialect, fs⟩ : Resolver).tokenizeScript s).Alike
      ((⟨dialect, fs'⟩ : Resolver).tokenizeScript s) := by
  obtain ⟨⟨rest, hs, -⟩, -⟩ := lex_eq s.text
  exact tokensOf_alike h dialect s _ (n := 0) hs

end Resolver

end

/-- **What files hold is opaque.** If two file systems differ at most in the texts that files hold, the
runs over the same scripts ask them the same, and differ at most in the values of references. -/
theorem tokenize_alike (dialect : Text) {fs fs' : FileSystem} (h : fs.SameUpToTexts fs')
    (ss : List Script) :
    ((⟨dialect, fs⟩ : Resolver).tokenize ss).Alike ((⟨dialect, fs'⟩ : Resolver).tokenize ss) := by
  induction ss with
  | nil => exact .pure (.refl _)
  | cons s ss ih =>
    have hs := Resolver.tokenizeScript_alike h dialect s
    rw [Resolver.tokenize, Resolver.tokenize]
    refine .bind hs.accesses ?_
    rw [hs.value.isOk_eq]
    split
    · exact ih.map fun o o' => hs.value.append
    · exact .pure hs.value

theorem MemoryFiles.sameUpToTexts {m m' : MemoryFiles}
    (h : ∀ key, (m.lookup key).isSome = (m'.lookup key).isSome) :
    m.fileSystem.SameUpToTexts m'.fileSystem := by
  refine ⟨fun p => h p.components, ?_⟩
  intro p
  have hp := h p.components
  simp only [fileSystem]
  cases hm : m.lookup p.components with
  | none =>
    have hm' : m'.lookup p.components = none := by simpa [hm] using hp.symm
    rw [hm']
    exact .inr ⟨.notFound p, .notFound p, rfl, rfl, rfl⟩
  | some text =>
    obtain ⟨text', hm'⟩ : ∃ text', m'.lookup p.components = some text' := by
      simpa [hm, Option.isSome_iff_exists] using hp.symm
    rw [hm']
    exact .inl ⟨text, text', rfl, rfl⟩

/-- A file whose text looks like an open quotation, in place of a word. -/
theorem tokenize_alike_openQuotation :
    let word := (MemoryFiles.empty.insert ⟨['f']⟩ ['A']).fileSystem
    let quotation := (MemoryFiles.empty.insert ⟨['f']⟩ ['\'', '<']).fileSystem
    let ss : List Script := [⟨⟨['m']⟩, ['<', 'f', '>', 'x']⟩, ⟨⟨['n']⟩, ['<', 'g', '>']⟩]
    word.SameUpToTexts quotation ∧
      ((⟨['D'], word⟩ : Resolver).tokenize ss).Alike
        ((⟨['D'], quotation⟩ : Resolver).tokenize ss) := by
  intro word quotation ss
  have h : word.SameUpToTexts quotation := by
    apply MemoryFiles.sameUpToTexts
    intro key
    rw [MemoryFiles.lookup_insert, MemoryFiles.lookup_insert]
    split <;> rfl
  exact ⟨h, tokenize_alike ['D'] h ss⟩

end ScriptLexer
