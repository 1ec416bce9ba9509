import Mathlib.Data.List.Basic
import ScriptLexer.Proofs.Tokens.Span

/-!
# What tokens say about the text

The tokens of a script account for every character that was read.

**The statement** (`Outcome.Sound`). The tokens other than the end of the file stand one behind the
other and each covers at least one character. A character that none of them covers is layout, or
belongs to a line comment that none of them touches. A token of kind `special` is the one character
it covers. A token of kind `text` is exactly one of three things: a whole word, the value of a quoted
text, or the text that a reference stands for.

**The proof** reads these facts off a run. A token is a lexeme `l` in a cut `ls₁ ++ l :: ls₂`, so the
text before it is `written ls₁`, and the condition under which `l` ends is a condition on the text
behind it. That a word does not continue another one also needs the lexeme before it: of all
lexemes only words end in a word character, and a word would have gone on
(`Cut.isWord_of_getLast?`).

Main result: `tokenize_sound`.
-/

namespace ScriptLexer

/-! ## Parts of a text -/

/-- The characters from offset `m` to before offset `n`. -/
def Text.between (t : Text) (m n : Nat) : Text := (t.take n).drop m

theorem Text.between_append (u v t : Text) :
    (u ++ (v ++ t)).between u.length (u.length + v.length) = v := by
  rw [between, ← List.append_assoc, List.take_left' List.length_append, List.drop_left]

theorem Text.drop_append (u v t : Text) : (u ++ (v ++ t)).drop (u.length + v.length) = t := by
  rw [← List.append_assoc, List.drop_left' List.length_append]

/-- From offset `m` to before offset `n` stands a line comment: two slashes, and everything up to
the end of the line. -/
def IsLineComment (t : Text) (m n : Nat) : Prop :=
  ∃ body, t.between m n = '/' :: '/' :: body ∧ (∀ c ∈ body, isLineEnd c = false) ∧
    ∀ c ∈ (t.drop n).head?, isLineEnd c = true

/-! ## Forms of tokens -/

namespace Token

/-- The characters that the token covers. -/
def source (a : Token) : Text := a.script.text.between a.start a.stop

def before (a : Token) : Text := a.script.text.take a.start

def behind (a : Token) : Text := a.script.text.drop a.stop

def Covers (a : Token) (i : Nat) : Prop := a.start ≤ i ∧ i < a.stop

/-- One character that starts nothing else, and is its own value. -/
def IsSpecialCharacter (a : Token) : Prop :=
  ∃ c, a.source = [c] ∧ a.value = [c] ∧ a.stop = a.start + 1 ∧ isLayout c = false ∧
    isWord c = false ∧ isQuote c = false ∧ c ≠ '<'

/-- A run of word characters that is its own value and goes on at neither end. -/
structure IsWholeWord (a : Token) : Prop where
  source : a.source = a.value
  word : ∀ c ∈ a.value, isWord c = true
  before : ∀ c ∈ a.before.getLast?, isWord c = false
  behind : ∀ c ∈ a.behind.head?, isWord c = false

/-- The value between two quotes, with every quote in it doubled and no third one behind. -/
def IsQuotedText (a : Token) : Prop :=
  ∃ q, isQuote q = true ∧ a.source = q :: doubled q a.value ++ [q] ∧ a.behind.head? ≠ some q

/-- A path between `<` and `>` that stands for the value. -/
def IsResolvedReference (a : Token) (r : Resolver) : Prop :=
  ∃ path, a.source = '<' :: path ++ ['>'] ∧ '>' ∉ path ∧ (∀ c ∈ path, isRefusedInPath c = false) ∧
    (r.resolve (referencePath a.script.folder path)).value = .ok a.value

end Token

/-- One of three, and no second one. -/
def ExactlyOne (p q r : Prop) : Prop := (p ∧ ¬ q ∧ ¬ r) ∨ (¬ p ∧ q ∧ ¬ r) ∨ (¬ p ∧ ¬ q ∧ r)

/-- What the outcome of one script says about its text. -/
structure Outcome.Sound (r : Resolver) (s : Script) (o : Outcome) : Prop where
  /-- No more than the script was read. -/
  scanned : o.scanned s ≤ s.length
  /-- A run without error ends with the end of the file. -/
  tokens : o.tokens = o.lexical ++ if o.isOk then [Token.endOfFile s] else []
  /-- Every token covers characters that were read. -/
  inside : ∀ a ∈ o.lexical, a.script = s ∧ a.start < a.stop ∧ a.stop ≤ o.scanned s
  /-- The tokens stand one behind the other. -/
  ordered : o.lexical.Pairwise fun a b => a.stop ≤ b.start
  /-- What no token covers is layout, or part of a comment that no token touches. -/
  uncovered : ∀ i < o.scanned s, (∀ a ∈ o.lexical, ¬ a.Covers i) →
    (∃ c, s.text[i]? = some c ∧ isLayout c = true) ∨
      ∃ m n, m ≤ i ∧ i < n ∧ n ≤ o.scanned s ∧ IsLineComment s.text m n ∧
        ∀ a ∈ o.lexical, a.stop ≤ m ∨ n ≤ a.start
  /-- Every token has one of the forms that its kind allows. -/
  forms : ∀ a ∈ o.lexical,
    (a.kind = .special ∧ a.IsSpecialCharacter) ∨
      (a.kind = .text ∧ ExactlyOne a.IsWholeWord a.IsQuotedText (a.IsResolvedReference r))

/-! ## The text around a lexeme -/

theorem Lexeme.isWord_of_getLast? {l : Lexeme} (hw : l.WellFormed) {c : Char} (hc : isWord c = true)
    {t : Text} (he : l.EndsBefore (c :: t)) : ∀ d ∈ l.text.getLast?, isWord d = false := by
  intro d hd
  cases l with
  | blank run => exact isWord_of_isLayout (hw.2 d (List.mem_of_getLast? hd))
  | comment body =>
    have hend : isLineEnd c = true := he c rfl
    rw [isWord_of_isLayout (isLayout_of_isLineEnd hend)] at hc
    cases hc
  | word run =>
    rw [he c rfl] at hc
    cases hc
  | quoted q value =>
    obtain rfl : q = d := Option.some.inj (List.getLast?_concat.symm.trans hd)
    exact isWord_of_isQuote hw
  | reference path =>
    obtain rfl : '>' = d := Option.some.inj (List.getLast?_concat.symm.trans hd)
    decide +kernel
  | special e =>
    obtain rfl : e = d := Option.some.inj hd
    exact hw.2.1

/-- **In front of a word character stands no word character**, if the lexemes are cut there. -/
theorem Cut.isWord_of_getLast? {ls : List Lexeme} {c : Char} {t : Text} (h : Cut (c :: t) ls)
    (hc : isWord c = true) : ∀ d ∈ (written ls).getLast?, isWord d = false := by
  rcases ls.eq_nil_or_concat with rfl | ⟨ls, l, rfl⟩
  · simp
  · rw [List.concat_eq_append] at h ⊢
    obtain ⟨hw, he, -⟩ := (Cut.append_iff.1 h).2
    rw [written_append, written_cons, written_nil, List.append_nil,
      List.getLast?_append_of_ne_nil _ (Lexeme.text_ne_nil hw)]
    exact Lexeme.isWord_of_getLast? hw hc he

section Forms

variable {s : Script} {l : Lexeme} {u t : Text} (kind : TokenKind) (value : Text)

/-- The token of the lexeme `l` that stands in `s` between `u` and `t`. -/
theorem source_eq (hs : s.text = u ++ (l.text ++ t)) :
    (⟨kind, value, s, u.length, u.length + l.length⟩ : Token).source = l.text := by
  rw [Token.source, hs]
  exact Text.between_append u l.text t

theorem before_eq (hs : s.text = u ++ (l.text ++ t)) :
    (⟨kind, value, s, u.length, u.length + l.length⟩ : Token).before = u := by
  rw [Token.before, hs, List.take_left]

theorem behind_eq (hs : s.text = u ++ (l.text ++ t)) :
    (⟨kind, value, s, u.length, u.length + l.length⟩ : Token).behind = t := by
  rw [Token.behind, hs]
  exact Text.drop_append u l.text t

end Forms

/-- **The three forms exclude each other**: they start with a word character, a quote and `<`. -/
theorem exactlyOne_of_or {r : Resolver} {a : Token} (hne : a.source ≠ [])
    (h : a.IsWholeWord ∨ a.IsQuotedText ∨ a.IsResolvedReference r) :
    ExactlyOne a.IsWholeWord a.IsQuotedText (a.IsResolvedReference r) := by
  have hword : a.IsWholeWord → ∃ c, a.source.head? = some c ∧ isWord c = true := by
    intro h
    obtain ⟨c, t, hc⟩ := List.exists_cons_of_ne_nil hne
    exact ⟨c, by rw [hc]; rfl, h.word c (by rw [← h.source, hc]; exact List.mem_cons_self)⟩
  have hquoted : a.IsQuotedText → ∃ q, a.source.head? = some q ∧ isQuote q = true := by
    rintro ⟨q, hq, hsource, -⟩
    exact ⟨q, by rw [hsource]; rfl, hq⟩
  have hreference : a.IsResolvedReference r → a.source.head? = some '<' := by
    rintro ⟨path, hsource, -⟩
    rw [hsource]
    rfl
  have hwq : a.IsWholeWord → ¬ a.IsQuotedText := by
    intro hw hq
    obtain ⟨c, hc, hcw⟩ := hword hw
    obtain ⟨q, hq, hqq⟩ := hquoted hq
    obtain rfl := Option.some.inj (hc.symm.trans hq)
    rw [isWord_of_isQuote hqq] at hcw
    cases hcw
  have hwr : a.IsWholeWord → ¬ a.IsResolvedReference r := by
    intro hw hr
    obtain ⟨c, hc, hcw⟩ := hword hw
    obtain rfl := Option.some.inj (hc.symm.trans (hreference hr))
    exact absurd hcw (by decide +kernel)
  have hqr : a.IsQuotedText → ¬ a.IsResolvedReference r := by
    intro hq hr
    obtain ⟨q, hq, hqq⟩ := hquoted hq
    obtain rfl := Option.some.inj (hq.symm.trans (hreference hr))
    exact absurd hqq (by decide)
  rcases h with h | h | h
  · exact .inl ⟨h, hwq h, hwr h⟩
  · exact .inr (.inl ⟨fun hw => hwq hw h, h, hqr h⟩)
  · exact .inr (.inr ⟨fun hw => hwr hw h, fun hq => hqr hq h, h⟩)

/-! ## The parts of soundness -/

section Parts

variable {r : Resolver} {s : Script} {content : Text → Text} {ls : List Lexeme} {rest : Text}

/-- **Every token has one of the forms that its kind allows.** -/
theorem forms_of_mem_tokensAt (hs : s.text = written ls ++ rest)
    (h : r.Reaches s.folder content ls rest) :
    ∀ a ∈ tokensAt content s 0 ls,
      (a.kind = .special ∧ a.IsSpecialCharacter) ∨
        (a.kind = .text ∧ ExactlyOne a.IsWholeWord a.IsQuotedText (a.IsResolvedReference r)) := by
  intro a ha
  obtain ⟨ls₁, l, ls₂, kind, value, rfl, hm, rfl⟩ := mem_tokensAt.1 ha
  rw [Nat.zero_add]
  have hfinds : r.Finds s.folder content l := h.finds l (by simp)
  obtain ⟨hcut₁, hw, he, -⟩ := Cut.append_iff.1 h.cut
  have htext : s.text = written ls₁ ++ (l.text ++ (written ls₂ ++ rest)) := by
    rw [hs, written_append, written_cons, List.append_assoc, List.append_assoc]
  have hsource := source_eq kind value htext
  have hbefore := before_eq kind value htext
  have hbehind := behind_eq kind value htext
  have hne := Lexeme.text_ne_nil hw
  cases l with
  | blank run => cases hm
  | comment body => cases hm
  | word run =>
    obtain ⟨rfl, rfl⟩ := Prod.mk.inj (Option.some.inj hm)
    refine .inr ⟨rfl, exactlyOne_of_or (hsource ▸ hne) (.inl ⟨hsource, hw.2, ?_, ?_⟩)⟩
    · rw [hbefore]
      obtain ⟨c, t, hc⟩ := List.exists_cons_of_ne_nil hw.1
      have hcw : isWord c = true := hw.2 c (hc ▸ List.mem_cons_self)
      refine Cut.isWord_of_getLast? (t := t ++ (written ls₂ ++ rest)) ?_ hcw
      rw [written_cons, Lexeme.text, hc, List.append_assoc] at hcut₁
      exact hcut₁
    · rw [hbehind]
      exact he
  | quoted q value =>
    obtain ⟨rfl, rfl⟩ := Prod.mk.inj (Option.some.inj hm)
    refine .inr ⟨rfl, exactlyOne_of_or (hsource ▸ hne) (.inr (.inl ⟨q, hw, hsource, ?_⟩))⟩
    rw [hbehind]
    exact he
  | reference path =>
    obtain ⟨rfl, rfl⟩ := Prod.mk.inj (Option.some.inj hm)
    refine .inr ⟨rfl, exactlyOne_of_or (hsource ▸ hne) (.inr (.inr ⟨path, hsource, ?_, ?_, ?_⟩))⟩
    · intro hmem
      exact absurd (hw '>' hmem) (by decide)
    · intro c hc
      exact (isPathCharacter_iff.1 (hw c hc)).2
    · exact hfinds path rfl
  | special c =>
    obtain ⟨rfl, rfl⟩ := Prod.mk.inj (Option.some.inj hm)
    exact .inl ⟨rfl, c, hsource, rfl, rfl, hw⟩

/-- **What no token covers is layout, or part of a comment that no token touches.** -/
theorem uncovered_tokensAt (hs : s.text = written ls ++ rest) (hcut : Cut rest ls) {i : Nat}
    (hi : i < (written ls).length) (hfree : ∀ a ∈ tokensAt content s 0 ls, ¬ a.Covers i) :
    (∃ c, s.text[i]? = some c ∧ isLayout c = true) ∨
      ∃ m n, m ≤ i ∧ i < n ∧ n ≤ (written ls).length ∧ IsLineComment s.text m n ∧
        ∀ a ∈ tokensAt content s 0 ls, a.stop ≤ m ∨ n ≤ a.start := by
  obtain ⟨ls₁, l, ls₂, rfl, hle, hlt⟩ := exists_lexeme_at hi
  have htext : s.text = written ls₁ ++ (l.text ++ (written ls₂ ++ rest)) := by
    rw [hs, written_append, written_cons, List.append_assoc, List.append_assoc]
  cases hm : l.meaning content with
  | some m =>
    -- A lexeme with a meaning has a token, and that one covers the character.
    have hmem := (mem_tokensAt (s := s) (n := 0)).2 ⟨ls₁, l, ls₂, m.1, m.2, rfl, hm, rfl⟩
    exact absurd ⟨by simpa using hle, by simpa using hlt⟩ (hfree _ hmem)
  | none =>
    obtain ⟨hcut₁, hw, he, hcut₂⟩ := Cut.append_iff.1 hcut
    cases l with
    | blank run =>
      left
      have hrun : i - (written ls₁).length < run.length := by
        have hlen : (Lexeme.blank run).length = run.length := rfl
        omega
      refine ⟨run[i - (written ls₁).length], ?_, hw.2 _ (List.getElem_mem hrun)⟩
      rw [htext, List.getElem?_append_right hle, Lexeme.text, List.getElem?_append_left hrun,
        List.getElem?_eq_getElem hrun]
    | comment body =>
      right
      refine ⟨(written ls₁).length, (written ls₁).length + (Lexeme.comment body).length, hle, hlt,
        ?_, ⟨body, ?_, hw, ?_⟩, ?_⟩
      · rw [written_append, List.length_append, length_written_cons]
        omega
      · rw [htext]
        exact Text.between_append _ (Lexeme.comment body).text _
      · have hdrop := Text.drop_append (written ls₁) (Lexeme.comment body).text (written ls₂ ++ rest)
        rw [← htext] at hdrop
        exact hdrop ▸ he
      · intro a ha
        rw [tokensAt_append, Nat.zero_add] at ha
        rcases List.mem_append.1 ha with ha | ha
        · left
          simpa using (bounds_of_mem_tokensAt hcut₁.wellFormed ha).2.2
        · right
          exact (bounds_of_mem_tokensAt hcut₂.wellFormed ha).1
    | _ => cases hm

end Parts

/-- **Tokenizing is sound.** Whatever the script, the dialect and the files are, the tokens and the
error account for every character that was read. -/
theorem tokenize_sound (r : Resolver) (s : Script) : (r.tokenize [s]).value.Sound r s := by
  obtain ⟨ls, rest, hs, hreach, hlex, hscan, htokens⟩ := r.exists_scanned s
  have hlen : (written ls).length ≤ s.length := by
    rw [Script.length, hs, List.length_append]
    exact Nat.le_add_right _ _
  have hw : ∀ l ∈ ls, l.WellFormed := hreach.cut.wellFormed
  constructor
  · rw [hscan]
    exact hlen
  · exact htokens
  · rw [hlex, hscan]
    intro a ha
    obtain ⟨-, hlt, hle⟩ := bounds_of_mem_tokensAt hw ha
    exact ⟨script_of_mem_tokensAt ha, hlt, by omega⟩
  · rw [hlex]
    exact pairwise_tokensAt hw
  · rw [hlex, hscan]
    intro i hi hfree
    exact uncovered_tokensAt hs hreach.cut hi hfree
  · rw [hlex]
    exact forms_of_mem_tokensAt hs hreach

end ScriptLexer
