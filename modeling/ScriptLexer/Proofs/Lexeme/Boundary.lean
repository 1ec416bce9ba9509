import ScriptLexer.Lexeme.Scan

/-!
# Where a lexeme ends

The text behind a lexeme decides where its reader stops: a word goes on while word characters
follow, a quoted text goes on when its quote is doubled, a slash becomes a comment when a second
one follows, and a comment takes the rest of its line. `Lexeme.EndsBefore` is the condition on that
text under which the lexeme stops where it is written. It asks for one character only.

Main results, one for each direction:

* `Start.read_append`: a lexeme that ends before a text is read back from in front of it;
* `Start.endsBefore_of_read`: a lexeme that was read ends before what is left.

`lex_append` carries the first over to whole texts. Layout is left out there: a run of it is one
lexeme, however it was put together.
-/

namespace ScriptLexer

namespace Lexeme

/-- With `t` behind it the lexeme ends where it is written. A run of layout may be cut anywhere. -/
def EndsBefore : Lexeme → Text → Prop
  | blank _, _ => True
  | comment _, t => ∀ c ∈ t.head?, isLineEnd c = true
  | word _, t => ∀ c ∈ t.head?, isWord c = false
  | quoted q _, t => t.head? ≠ some q
  | reference _, _ => True
  | special c, t => c = '/' → t.head? ≠ some '/'

@[simp] theorem endsBefore_nil (l : Lexeme) : l.EndsBefore [] := by
  cases l <;> simp [EndsBefore]

theorem EndsBefore.of_head? {l : Lexeme} {t t' : Text} (h : l.EndsBefore t)
    (ht : t.head? = t'.head?) : l.EndsBefore t' := by
  cases l <;> simp only [EndsBefore] at h ⊢ <;> rwa [← ht]

/-- **Every lexeme ends before a line end.** -/
theorem endsBefore_of_isLineEnd {l : Lexeme} (hl : l.WellFormed) {c : Char}
    (hc : isLineEnd c = true) (t : Text) : l.EndsBefore (c :: t) := by
  have hlay : isLayout c = true := isLayout_of_isLineEnd hc
  cases l with
  | blank run => trivial
  | comment body =>
    intro d hd
    obtain rfl : c = d := Option.some.inj hd
    exact hc
  | word run =>
    intro d hd
    obtain rfl : c = d := Option.some.inj hd
    exact isWord_of_isLayout hlay
  | quoted q value =>
    intro h
    obtain rfl : c = q := Option.some.inj h
    rw [isLayout_of_isQuote hl] at hlay
    cases hlay
  | reference path => trivial
  | special d =>
    intro _ h
    obtain rfl : c = '/' := Option.some.inj h
    exact absurd hlay (by decide)

end Lexeme

/-! ## Runs of a class of characters -/

section Runs

variable {p : Char → Bool} {run t : Text}

theorem takeWhile_append_of_head? (hr : ∀ c ∈ run, p c = true) (ht : ∀ c ∈ t.head?, p c = false) :
    (run ++ t).takeWhile p = run := by
  rw [List.takeWhile_append_of_pos hr]
  cases t with
  | nil => simp
  | cons c t => simp [ht c rfl]

theorem dropWhile_append_of_head? (hr : ∀ c ∈ run, p c = true) (ht : ∀ c ∈ t.head?, p c = false) :
    (run ++ t).dropWhile p = t := by
  rw [List.dropWhile_append_of_pos hr]
  cases t with
  | nil => rfl
  | cons c t => simp [ht c rfl]

theorem head?_dropWhile (p : Char → Bool) (t : Text) : ∀ c ∈ (t.dropWhile p).head?, p c = false := by
  intro c hc
  have h := List.head?_dropWhile_not p t
  rw [Option.mem_def.1 hc] at h
  exact h

end Runs

/-! ## What is written is read back -/

theorem readWord_append {run t : Text} (hw : (Lexeme.word run).WellFormed)
    (he : (Lexeme.word run).EndsBefore t) : readWord (run ++ t) = .read run t := by
  have htake := takeWhile_append_of_head? hw.2 he
  rw [readWord, htake, if_neg hw.1, dropWhile_append_of_head? hw.2 he]

theorem quotedBody_doubled_append {q : Char} {t : Text} (ht : t.head? ≠ some q) (value : Text) :
    quotedBody q (doubled q value ++ q :: t) = some (value, t) := by
  induction value with
  | nil =>
    cases t with
    | nil => simp [doubled, quotedBody]
    | cons d t =>
      have hd : d ≠ q := by
        intro h
        exact ht (congrArg some h)
      simp [doubled, quotedBody, hd]
  | cons c value ih =>
    by_cases hc : c = q
    · subst hc
      simp [doubled, quotedBody, ih]
    · -- The equation for a plain character asks for a second character behind it.
      obtain ⟨d, rest, hrest⟩ : ∃ d rest, doubled q value ++ q :: t = d :: rest :=
        List.exists_cons_of_ne_nil (by simp)
      rw [doubled, if_neg hc, List.cons_append, hrest, quotedBody, if_neg hc, ← hrest, ih]
      rfl

theorem readQuoted_append {q : Char} {value t : Text} (hw : (Lexeme.quoted q value).WellFormed)
    (he : (Lexeme.quoted q value).EndsBefore t) :
    readQuoted (q :: (doubled q value ++ q :: t)) = .read value t := by
  have hq : isQuote q = true := hw
  rw [readQuoted, if_pos hq, quotedBody_doubled_append he]

theorem readComment_append {body t : Text} (hw : (Lexeme.comment body).WellFormed)
    (he : (Lexeme.comment body).EndsBefore t) :
    readComment ('/' :: '/' :: (body ++ t)) = .read body t := by
  have hbody : ∀ c ∈ body, (!isLineEnd c) = true := by
    intro c hc
    rw [hw c hc]
    rfl
  have hend : ∀ c ∈ t.head?, (!isLineEnd c) = false := by
    intro c hc
    rw [he c hc]
    rfl
  rw [readComment, takeWhile_append_of_head? hbody hend, dropWhile_append_of_head? hbody hend]

theorem readReference_append {path : Text} (hw : (Lexeme.reference path).WellFormed) (t : Text) :
    readReference ('<' :: (path ++ '>' :: t)) = .read path t := by
  have hend : ∀ c ∈ ('>' :: t).head?, isPathCharacter c = false := by
    intro c hc
    obtain rfl : '>' = c := Option.some.inj hc
    rfl
  simp only [readReference, dropWhile_append_of_head? hw hend, takeWhile_append_of_head? hw hend,
    if_true]

namespace Start

theorem of_word {c : Char} (h : isWord c = true) (rest : Text) : of c rest = word := by
  rw [of, if_pos h]

theorem of_quoted {c : Char} (h : isQuote c = true) (rest : Text) : of c rest = quoted c := by
  rw [of, isWord_of_isQuote h, if_neg (by simp), if_pos h]

theorem of_reference (rest : Text) : of '<' rest = reference := by
  have hw : isWord '<' = false := by decide +kernel
  rw [of, hw]
  rfl

theorem of_comment (rest : Text) : of '/' ('/' :: rest) = comment := by
  have hw : isWord '/' = false := by decide +kernel
  rw [of, hw]
  rfl

theorem of_special {c : Char} {rest : Text} (hw : (Lexeme.special c).WellFormed)
    (he : (Lexeme.special c).EndsBefore rest) : of c rest = special := by
  obtain ⟨-, hword, hquote, href⟩ := hw
  have hslash : ¬ (c = '/' ∧ rest.head? = some '/') := by
    rintro ⟨hc, hhead⟩
    exact he hc hhead
  simp [of, hword, hquote, href, hslash]

/-- **A lexeme that ends before a text is read back from in front of it.** -/
theorem read_append {l : Lexeme} {t : Text} (hw : l.WellFormed) (he : l.EndsBefore t)
    (hb : ∀ run, l ≠ .blank run) :
    ∃ c rest, l.text ++ t = c :: rest ∧ isLayout c = false ∧
      (of c rest).read (c :: rest) = .read l t := by
  cases l with
  | blank run => exact absurd rfl (hb run)
  | comment body =>
    refine ⟨'/', '/' :: (body ++ t), rfl, by decide, ?_⟩
    rw [of_comment, read, readComment_append hw he]
    rfl
  | word run =>
    obtain ⟨c, rest, hrun⟩ := List.exists_cons_of_ne_nil hw.1
    have hc : isWord c = true := hw.2 c (by rw [hrun]; exact List.mem_cons_self)
    refine ⟨c, rest ++ t, by rw [Lexeme.text, hrun]; rfl, ?_, ?_⟩
    · cases h : isLayout c with
      | false => rfl
      | true => exact absurd hc (by rw [isWord_of_isLayout h]; simp)
    · have hread := readWord_append hw he
      rw [hrun] at hread
      rw [of_word hc, read, ← List.cons_append, hread, hrun]
      rfl
  | quoted q value =>
    refine ⟨q, doubled q value ++ q :: t, by simp [Lexeme.text], isLayout_of_isQuote hw, ?_⟩
    rw [of_quoted hw, read, readQuoted_append hw he]
    rfl
  | reference path =>
    refine ⟨'<', path ++ '>' :: t, by simp [Lexeme.text], by decide, ?_⟩
    rw [of_reference, read, readReference_append hw]
    rfl
  | special c =>
    refine ⟨c, t, rfl, hw.1, ?_⟩
    rw [of_special hw he]
    rfl

end Start

/-! ## What was read ends there -/

theorem endsBefore_of_readWord {t w rest : Text} (h : readWord t = .read w rest) :
    (Lexeme.word w).EndsBefore rest := by
  unfold readWord at h
  split at h
  · cases h
  · obtain ⟨-, rfl⟩ := Reading.read.inj h
    exact head?_dropWhile isWord t

theorem head?_ne_of_quotedBody {q : Char} {t value rest : Text}
    (h : quotedBody q t = some (value, rest)) : rest.head? ≠ some q := by
  fun_induction quotedBody q t generalizing value with
  | case1 => cases h
  | case2 =>
    obtain ⟨-, rfl⟩ := Prod.mk.inj (Option.some.inj h)
    simp
  | case3 => cases h
  | case4 t ih =>
    obtain ⟨⟨v, r⟩, hr, hv⟩ := Option.map_eq_some_iff.1 h
    obtain ⟨-, rfl⟩ := Prod.mk.inj hv
    exact ih hr
  | case5 d t hd =>
    obtain ⟨-, rfl⟩ := Prod.mk.inj (Option.some.inj h)
    exact fun h => hd (Option.some.inj h)
  | case6 c d t hc ih =>
    obtain ⟨⟨v, r⟩, hr, hv⟩ := Option.map_eq_some_iff.1 h
    obtain ⟨-, rfl⟩ := Prod.mk.inj hv
    exact ih hr

theorem endsBefore_of_readQuoted {q : Char} {t value rest : Text}
    (h : readQuoted (q :: t) = .read value rest) : (Lexeme.quoted q value).EndsBefore rest := by
  simp only [readQuoted] at h
  split at h
  · split at h
    · next hb =>
      obtain ⟨rfl, rfl⟩ := Reading.read.inj h
      exact head?_ne_of_quotedBody hb
    · cases h
  · cases h

theorem endsBefore_of_readComment {t body rest : Text} (h : readComment t = .read body rest) :
    (Lexeme.comment body).EndsBefore rest := by
  unfold readComment at h
  split at h
  · next t =>
    obtain ⟨-, rfl⟩ := Reading.read.inj h
    intro c hc
    simpa using head?_dropWhile (fun c => !isLineEnd c) t c hc
  · cases h

/-- **A lexeme that was read ends before what is left.** -/
theorem Start.endsBefore_of_read {c : Char} {t rest : Text} {l : Lexeme}
    (h : (of c t).read (c :: t) = .read l rest) : l.EndsBefore rest := by
  unfold of at h
  split at h
  · obtain ⟨w, hw, rfl⟩ := Reading.map_eq_read.1 h
    exact endsBefore_of_readWord hw
  split at h
  · obtain ⟨v, hv, rfl⟩ := Reading.map_eq_read.1 h
    exact endsBefore_of_readQuoted hv
  split at h
  · obtain ⟨p, -, rfl⟩ := Reading.map_eq_read.1 h
    trivial
  split at h
  · obtain ⟨b, hb, rfl⟩ := Reading.map_eq_read.1 h
    exact endsBefore_of_readComment hb
  next hslash =>
    obtain ⟨rfl, rfl⟩ := Reading.read.inj (show Reading.read (Lexeme.special c) t = _ from h)
    intro hc hhead
    exact hslash ⟨hc, hhead⟩

/-! ## Whole texts -/

@[simp] theorem lex_nil : lex [] = ⟨[], none⟩ := by rw [lex]

theorem lex_layout {c : Char} (hc : isLayout c = true) (t : Text) :
    lex (c :: t) = (lex (t.dropWhile isLayout)).cons (.blank (c :: t.takeWhile isLayout)) := by
  rw [lex, if_pos hc]

theorem lex_read {c : Char} {t rest : Text} {l : Lexeme} (hc : isLayout c = false)
    (h : (Start.of c t).read (c :: t) = .read l rest) : lex (c :: t) = (lex rest).cons l := by
  rw [lex, if_neg (by simp [hc])]
  split
  · next h' =>
    obtain ⟨rfl, rfl⟩ := Reading.read.inj (h.symm.trans h')
    rfl
  · next h' => cases h.symm.trans h'
  · next h' => cases h.symm.trans h'

theorem lex_fault {c : Char} {t : Text} {f : Fault} (hc : isLayout c = false)
    (h : (Start.of c t).read (c :: t) = .fault f) : lex (c :: t) = ⟨[], some f⟩ := by
  rw [lex, if_neg (by simp [hc])]
  split
  · next h' => cases h.symm.trans h'
  · next h' =>
    obtain rfl := Reading.fault.inj (h.symm.trans h')
    rfl
  · next h' => cases h.symm.trans h'

/-- **A lexeme that ends before a text comes first, then the lexemes of the text.** -/
theorem lex_append {l : Lexeme} {t : Text} (hw : l.WellFormed) (he : l.EndsBefore t)
    (hb : ∀ run, l ≠ .blank run) : lex (l.text ++ t) = (lex t).cons l := by
  obtain ⟨c, rest, htext, hc, hread⟩ := Start.read_append hw he hb
  rw [htext, lex_read hc hread]

end ScriptLexer
