import ScriptLexer.Proofs.Json.Number
import ScriptLexer.Proofs.Json.Text

/-!
# Values are passed over as they are written

`skip` keeps the brackets that are open, and goes from one stage to the next. The lemmas on its stages
say where each stage ends. From them, by induction over the grammar, a value brings `skip` from the
stage of a value to the stage behind it, with the same brackets open (`IsJson.passed`). What a string in
the value holds does not matter, nor how deep the value is nested: the induction goes through the value
and not through the brackets.

A value in front of anything that cannot go on a number is passed over (`IsJson.skip_append`).
-/

namespace ScriptLexer.Json

/-! ## Blanks -/

theorem isBlanks_nil : IsBlanks [] := by
  simp [IsBlanks]

theorem IsBlanks.append {w w' : Text} (hw : IsBlanks w) (hw' : IsBlanks w') :
    IsBlanks (w ++ w') := by
  intro c hc
  exact (List.mem_append.1 hc).elim (hw c) (hw' c)

theorem IsBlanks.of_prefix {p w : Text} (hw : IsBlanks w) (hp : p <+: w) : IsBlanks p :=
  fun c hc => hw c (hp.subset hc)

theorem isBlank_of_mem {w : Text} (h : IsBlanks w) {c : Char} (hc : c ∈ w) :
    isBlank (.char c) = true := by
  simpa [isBlank, or_assoc] using h c hc

theorem skipBlank_append {w : Text} (h : IsBlanks w) (s : Input) :
    skipBlank (ofText w ++ s) = skipBlank s := by
  apply List.dropWhile_append_of_pos
  intro x hx
  obtain ⟨c, hc, rfl⟩ := List.mem_map.1 hx
  exact isBlank_of_mem h hc

theorem skipBlank_cons {x : Symbol} (h : isBlank x = false) (s : Input) :
    skipBlank (x :: s) = x :: s :=
  List.dropWhile_cons_of_neg (by simp [h])

theorem skipBlank_ofText {w : Text} (h : IsBlanks w) : skipBlank (ofText w) = [] := by
  rw [← List.append_nil (ofText w), skipBlank_append h]
  rfl

theorem endsNumber_nil : EndsNumber [] := by
  intro x hx
  cases hx

theorem endsNumber_cons {c : Char} (h : digit? (.char c) = none ∧ c ≠ '.' ∧ c ≠ 'e' ∧ c ≠ 'E')
    (rest : Input) : EndsNumber (.char c :: rest) := by
  intro x hx
  obtain rfl := Option.some.inj hx
  simpa using h

theorem EndsNumber.append_blanks {rest : Input} (h : EndsNumber rest) {w : Text} (hw : IsBlanks w) :
    EndsNumber (ofText w ++ rest) := by
  cases w with
  | nil => exact h
  | cons c w =>
    have hall : ∀ c ∈ [' ', '\t', '\n', '\r'],
        digit? (.char c) = none ∧ c ≠ '.' ∧ c ≠ 'e' ∧ c ≠ 'E' := by
      simp [digit?]
    exact endsNumber_cons (hall c (hw c List.mem_cons_self)) _

/-! ## The stages -/

/-- The stage that the items of a bracket start at. -/
def Bracket.stage : Bracket → Stage
  | list => .value
  | object => .member

section Stages

variable {opened outer : List Bracket} {bracket : Bracket} {s s' rest : Input} {x : Symbol}

theorem skip_value_congr (h : skipBlank s = skipBlank s') :
    skip .value opened s = skip .value opened s' := by
  rw [skip, skip, h]

theorem skip_after_congr (h : skipBlank s = skipBlank s') :
    skip .after (bracket :: outer) s = skip .after (bracket :: outer) s' := by
  rw [skip, skip, h]

theorem skip_scalar (hx : isBlank x = false) (hlist : x ≠ .char '[') (hobject : x ≠ .char '\x7b')
    (h : skipScalar (x :: s) = .ok rest) :
    skip .value opened (x :: s) = skip .after opened rest := by
  have hblank := skipBlank_cons hx s
  rw [skip]
  split
  · simp_all
  · simp_all
  · simp_all
  · next heq =>
    rw [hblank] at heq
    obtain ⟨rfl, rfl⟩ := List.cons.inj heq
    split <;> simp_all

theorem skipBlank_opening (bracket : Bracket) (s : Input) :
    skipBlank (.char bracket.opening :: s) = .char bracket.opening :: s :=
  skipBlank_cons (by cases bracket <;> decide) s

theorem skip_empty (h : skipBlank s = .char bracket.closing :: rest) :
    skip .value opened (.char bracket.opening :: s) = skip .after opened rest := by
  have hopening := skipBlank_opening bracket s
  rw [skip]
  cases bracket <;> split <;> simp_all [Bracket.opening] <;> split <;> simp_all [Bracket.closing]

theorem skip_open (h : ∀ rest, skipBlank s ≠ .char bracket.closing :: rest) :
    skip .value opened (.char bracket.opening :: s) =
      skip bracket.stage (bracket :: opened) s := by
  have hopening := skipBlank_opening bracket s
  rw [skip]
  cases bracket <;> split <;> simp_all [Bracket.opening] <;> split <;>
    simp_all [Bracket.closing, Bracket.stage]

theorem skip_member (h : skipKey s = .ok rest) :
    skip .member opened s = skip .value opened rest := by
  conv => lhs; rw [skip]
  split <;> simp_all

theorem skip_comma (s : Input) :
    skip .after (bracket :: outer) (.char ',' :: s) = skip bracket.stage (bracket :: outer) s := by
  have hblank : skipBlank (.char ',' :: s) = .char ',' :: s := skipBlank_cons (by decide) s
  rw [skip]
  split <;> simp_all
  cases bracket <;> rfl

theorem skip_close (s : Input) :
    skip .after (bracket :: outer) (.char bracket.closing :: s) = skip .after outer s := by
  have hblank : skipBlank (.char bracket.closing :: s) = .char bracket.closing :: s :=
    skipBlank_cons (by cases bracket <;> decide) s
  rw [skip]
  split <;> simp_all
  cases bracket <;> simp [Bracket.closing]

theorem skip_after_nil (s : Input) : skip .after [] s = .ok s := by
  rw [skip]

end Stages

/-! ## Scalars -/

/-- A character that a number starts with. -/
def StartsNumber (c : Char) : Prop := c = '-' ∨ '0' ≤ c ∧ c ≤ '9'

theorem IsNumber.starts {minus whole fraction exponent : Text}
    (h : IsNumber minus whole fraction exponent) :
    ∃ c s, minus ++ whole ++ fraction ++ exponent = c :: s ∧ StartsNumber c := by
  obtain ⟨d, ds, rfl⟩ := List.exists_cons_of_ne_nil h.whole.1.1
  obtain rfl | rfl := h.minus
  · exact ⟨d, _, rfl, .inr (h.whole.1.2 d List.mem_cons_self)⟩
  · exact ⟨'-', _, rfl, .inl rfl⟩

theorem StartsNumber.notMem {c : Char} (h : StartsNumber c) {others : Text}
    (hothers : ∀ d ∈ others, ¬ (d = '-' ∨ '0' ≤ d ∧ d ≤ '9')) : c ∉ others :=
  fun hc => hothers c hc h

theorem StartsNumber.skipScalar_eq {c : Char} (h : StartsNumber c) (s : Input) :
    skipScalar (.char c :: s) = skipNumber (.char c :: s) := by
  have hstarts : startsNumber (.char c) = true := by
    obtain rfl | hdigit := h
    · rfl
    · simp [startsNumber, digit?_eq hdigit]
  have hne : c ∉ ['n', 't', 'f', '"'] := h.notMem (by simp)
  unfold skipScalar
  split <;> simp_all

theorem skipScalar_literal {t : Text} (h : t ∈ ["null".toList, "true".toList, "false".toList])
    (rest : Input) : skipScalar (ofText t ++ rest) = .ok rest := by
  simp only [List.mem_cons, List.not_mem_nil, or_false] at h
  obtain rfl | rfl | rfl := h <;> simp [skipScalar, expect]

theorem skipScalar_number {minus whole fraction exponent : Text}
    (h : IsNumber minus whole fraction exponent) {rest : Input} (hrest : EndsNumber rest) :
    skipScalar (ofText (minus ++ whole ++ fraction ++ exponent) ++ rest) = .ok rest := by
  have hskip := h.skipNumber_append hrest
  obtain ⟨c, s, heq, hc⟩ := h.starts
  rw [heq, ofText_cons, List.cons_append] at hskip ⊢
  rw [hc.skipScalar_eq, hskip]

theorem skipScalar_string {s : Text} (h : IsBody s) (rest : Input) :
    skipScalar (ofText ('"' :: s ++ ['"']) ++ rest) = .ok rest := by
  simp only [List.cons_append, ofText_cons, ofText_append, ofText_nil, List.append_assoc,
    List.nil_append]
  exact h.skipText_append rest

/-! ## Values -/

theorem IsJson.starts {form : Form} {s : Text} (h : IsJson form s) :
    ∃ w c r, s = w ++ c :: r ∧ IsBlanks w ∧ c ∉ [' ', '\t', '\n', '\r', ']', '\x7d'] := by
  induction h with
  | literal ht =>
    simp only [List.mem_cons, List.not_mem_nil, or_false] at ht
    obtain rfl | rfl | rfl := ht <;> exact ⟨[], _, _, rfl, isBlanks_nil, by decide⟩
  | number hn =>
    obtain ⟨c, s, heq, hc⟩ := hn.starts
    exact ⟨[], c, s, heq, isBlanks_nil, hc.notMem (by simp)⟩
  | string => exact ⟨[], _, _, rfl, isBlanks_nil, by decide⟩
  | empty bracket => exact ⟨[], _, _, rfl, isBlanks_nil, by cases bracket <;> decide⟩
  | bracketed bracket => exact ⟨[], _, _, rfl, isBlanks_nil, by cases bracket <;> decide⟩
  | @element w _ w' hw _ _ ih =>
    obtain ⟨u, c, r, rfl, hu, hc⟩ := ih
    exact ⟨w ++ u, c, r ++ w', by simp, hw.append hu, hc⟩
  | @member w key w₁ w₂ v w' hw =>
    exact ⟨w, '"', key ++ '"' :: w₁ ++ ':' :: w₂ ++ v ++ w', by simp, hw, by decide⟩
  | single _ ih => exact ih
  | @more _ _ r _ _ ih =>
    obtain ⟨u, c, s, rfl, hu, hc⟩ := ih
    exact ⟨u, c, s ++ ',' :: r, by simp, hu, hc⟩

theorem IsJson.ne_closing {form : Form} {s : Text} (h : IsJson form s) (bracket : Bracket)
    (rest r : Input) : skipBlank (ofText s ++ rest) ≠ .char bracket.closing :: r := by
  obtain ⟨w, c, u, rfl, hw, hc⟩ := h.starts
  have hblank : isBlank (.char c) = false := by
    simp only [List.mem_cons, not_or] at hc
    simp [isBlank, hc]
  rw [ofText_append, List.append_assoc, skipBlank_append hw, ofText_cons, List.cons_append,
    skipBlank_cons hblank]
  intro heq
  obtain rfl := Symbol.char.inj (List.cons.inj heq).1
  exact hc (by cases bracket <;> decide)

theorem skipKey_append {w key w' : Text} (hw : IsBlanks w) (hkey : IsBody key) (hw' : IsBlanks w')
    (s : Input) :
    skipKey (ofText (w ++ '"' :: key ++ '"' :: w' ++ [':']) ++ s) = .ok s := by
  simp only [ofText_append, ofText_cons, ofText_nil, List.append_assoc, List.cons_append,
    List.nil_append]
  rw [skipKey, skipBlank_append hw, skipBlank_cons (by decide)]
  simp only [hkey.skipText_append]
  rw [skipBlank_append hw', skipBlank_cons (by decide)]
  rfl

/-- The stage at which a text of some form is met. -/
def Form.stage : Form → Stage
  | value => .value
  | item bracket | items bracket => bracket.stage

/-- The brackets that are open where it stands, from those that are open around it. -/
def Form.opened : Form → List Bracket → List Bracket
  | value, outer => outer
  | item bracket, outer | items bracket, outer => bracket :: outer

theorem skip_between {bracket : Bracket} {w v w' : Text} {outer : List Bracket} {rest : Input}
    (hw : IsBlanks w) (hw' : IsBlanks w')
    (h : skip .value (bracket :: outer) (ofText v ++ (ofText w' ++ rest)) =
      skip .after (bracket :: outer) (ofText w' ++ rest)) :
    skip .value (bracket :: outer) (ofText (w ++ v ++ w') ++ rest) =
      skip .after (bracket :: outer) rest := by
  simp only [ofText_append, List.append_assoc]
  rw [skip_value_congr (skipBlank_append hw _), h, skip_after_congr (skipBlank_append hw' _)]

theorem skip_scalarText {v : Text} {opened : List Bracket} {rest : Input}
    (hv : ∃ c s, v = c :: s ∧ c ∉ [' ', '\t', '\n', '\r', '[', '\x7b'])
    (h : skipScalar (ofText v ++ rest) = .ok rest) :
    skip .value opened (ofText v ++ rest) = skip .after opened rest := by
  obtain ⟨c, s, rfl, hc⟩ := hv
  simp only [List.mem_cons, List.not_mem_nil, or_false, not_or] at hc
  exact skip_scalar (by simp [isBlank, hc]) (by simp [hc]) (by simp [hc]) h

/-- **A text of some form brings `skip` behind it**, with the same brackets open. -/
theorem IsJson.passed {form : Form} {s : Text} (h : IsJson form s) (outer : List Bracket)
    {rest : Input} (hrest : EndsNumber rest) :
    skip form.stage (form.opened outer) (ofText s ++ rest) =
      skip .after (form.opened outer) rest := by
  -- The brackets outside are any, so a value deeper inside is met with more of them.
  induction h generalizing outer rest with
  | literal ht =>
    refine skip_scalarText ?_ (skipScalar_literal ht rest)
    simp only [List.mem_cons, List.not_mem_nil, or_false] at ht
    obtain rfl | rfl | rfl := ht <;> exact ⟨_, _, rfl, by decide⟩
  | number hn =>
    obtain ⟨c, s, heq, hc⟩ := hn.starts
    exact skip_scalarText ⟨c, s, heq, hc.notMem (by simp)⟩ (skipScalar_number hn hrest)
  | string hs => exact skip_scalarText ⟨_, _, rfl, by decide⟩ (skipScalar_string hs rest)
  | empty bracket hw =>
    simp only [ofText_append, ofText_cons, List.cons_append, List.append_assoc]
    apply skip_empty
    rw [skipBlank_append hw]
    exact skipBlank_cons (by cases bracket <;> decide) rest
  | @bracketed bracket s hs ih =>
    have hclosing : EndsNumber (.char bracket.closing :: rest) :=
      endsNumber_cons (by cases bracket <;> decide) rest
    calc skip .value outer (ofText (bracket.opening :: s ++ [bracket.closing]) ++ rest)
        = skip .value outer
            (.char bracket.opening :: (ofText s ++ .char bracket.closing :: rest)) := by simp
      _ = skip bracket.stage (bracket :: outer) (ofText s ++ .char bracket.closing :: rest) :=
          skip_open (hs.ne_closing bracket _)
      _ = skip .after (bracket :: outer) (.char bracket.closing :: rest) := ih outer hclosing
      _ = skip .after outer rest := skip_close rest
  | element hw hv hw' ih => exact skip_between hw hw' (ih _ (hrest.append_blanks hw'))
  | @member w key w₁ w₂ v w' hw hkey hw₁ hw₂ hv hw' ih =>
    have hblanks := skip_between hw₂ hw' (ih (.object :: outer) (hrest.append_blanks hw'))
    have hkeyed := skipKey_append hw hkey hw₁ (ofText (w₂ ++ v ++ w') ++ rest)
    calc skip .member (.object :: outer)
          (ofText (w ++ '"' :: key ++ '"' :: w₁ ++ ':' :: w₂ ++ v ++ w') ++ rest)
        = skip .member (.object :: outer)
            (ofText (w ++ '"' :: key ++ '"' :: w₁ ++ [':']) ++ (ofText (w₂ ++ v ++ w') ++ rest)) := by
          simp
      _ = skip .value (.object :: outer) (ofText (w₂ ++ v ++ w') ++ rest) := skip_member hkeyed
      _ = skip .after (.object :: outer) rest := hblanks
  | single hs ih => exact ih outer hrest
  | @more bracket s r hs hr ihs ihr =>
    have hcomma : EndsNumber (.char ',' :: (ofText r ++ rest)) := endsNumber_cons (by decide) _
    calc skip bracket.stage (bracket :: outer) (ofText (s ++ ',' :: r) ++ rest)
        = skip bracket.stage (bracket :: outer) (ofText s ++ .char ',' :: (ofText r ++ rest)) := by
          simp
      _ = skip .after (bracket :: outer) (.char ',' :: (ofText r ++ rest)) := ihs outer hcomma
      _ = skip bracket.stage (bracket :: outer) (ofText r ++ rest) := skip_comma _
      _ = skip .after (bracket :: outer) rest := ihr outer hrest

/-- **A value is passed over**, up to its end and no further. -/
theorem IsJson.skip_append {v : Text} (h : IsJson .value v) {rest : Input}
    (hrest : EndsNumber rest) : skip .value [] (ofText v ++ rest) = .ok rest :=
  (h.passed [] hrest).trans (skip_after_nil rest)

end ScriptLexer.Json
