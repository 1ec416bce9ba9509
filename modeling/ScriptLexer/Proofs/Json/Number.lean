import ScriptLexer.Proofs.Json.Grammar

/-!
# Numbers are passed over as they are written

A reader of numbers stops at the first character that cannot go on the number, so a number is read as
a whole if it is written in front of such a character (`EndsNumber`), or at the end. Each part of the
number is read up to the next one, since no part starts with a digit.
-/

namespace ScriptLexer.Json

/-- No number goes on with the input. -/
def EndsNumber (rest : Input) : Prop :=
  ∀ x, rest.head? = some x → digit? x = none ∧ x ≠ .char '.' ∧ x ≠ .char 'e' ∧ x ≠ .char 'E'

/-- No digits go on with the input. -/
def EndsDigits (rest : Input) : Prop := ∀ x, rest.head? = some x → digit? x = none

def digitValue (c : Char) : Nat := c.toNat - 0x30

theorem digit?_eq {c : Char} (h : '0' ≤ c ∧ c ≤ '9') : digit? (.char c) = some (digitValue c) := by
  rw [digit?, if_pos h]
  rfl

theorem readDigits_append {ds : Text} (h : ∀ c ∈ ds, '0' ≤ c ∧ c ≤ '9') {rest : Input}
    (hrest : EndsDigits rest) : readDigits (ofText ds ++ rest) = (ds.map digitValue, rest) := by
  induction ds with
  | nil =>
    cases rest with
    | nil => rfl
    | cons x rest =>
      rw [ofText_nil, List.nil_append, readDigits, hrest x rfl]
      rfl
  | cons c ds ih =>
    rw [ofText_cons, List.cons_append, readDigits, digit?_eq (h c List.mem_cons_self),
      ih fun d hd => h d (List.mem_cons_of_mem c hd)]
    rfl

theorem readSomeDigits_append {ds : Text} (h : IsDigits ds) {rest : Input}
    (hrest : EndsDigits rest) :
    readSomeDigits (ofText ds ++ rest) = .ok (ds.map digitValue, rest) := by
  obtain ⟨hne, hdigits⟩ := h
  obtain ⟨c, ds, rfl⟩ := List.exists_cons_of_ne_nil hne
  rw [readSomeDigits, readDigits_append hdigits hrest]
  rfl

/-! ## The parts of a number -/

theorem EndsNumber.endsDigits {rest : Input} (h : EndsNumber rest) : EndsDigits rest :=
  fun x hx => (h x hx).1

theorem endsDigits_cons {c : Char} {rest : Input} (h : digit? (.char c) = none) :
    EndsDigits (.char c :: rest) := by
  intro x hx
  obtain rfl := Option.some.inj hx
  exact h

theorem eq_zero_of_digitValue {c : Char} (h : '0' ≤ c ∧ c ≤ '9') (hc : digitValue c = 0) :
    c = '0' := by
  have hlow : 0x30 ≤ c.toNat := h.1
  have hvalue : c.toNat - 0x30 = 0 := hc
  exact Char.toNat_inj.1 (show c.toNat = 0x30 by omega)

theorem IsDigits.ne_cons {ds : Text} (h : IsDigits ds) {c : Char} (hc : ¬ ('0' ≤ c ∧ c ≤ '9'))
    (s rest : Input) : ofText ds ++ s ≠ .char c :: rest := by
  obtain ⟨hne, hdigits⟩ := h
  obtain ⟨d, ds, rfl⟩ := List.exists_cons_of_ne_nil hne
  intro heq
  obtain rfl := Symbol.char.inj (List.cons.inj heq).1
  exact hc (hdigits d List.mem_cons_self)

theorem readSign_append {sign ds : Text} (hsign : sign = [] ∨ sign = ['+'] ∨ sign = ['-'])
    (hds : IsDigits ds) (rest : Input) :
    ∃ n, readSign (ofText (sign ++ ds) ++ rest) = (n, ofText ds ++ rest) := by
  obtain rfl | rfl | rfl := hsign
  · refine ⟨1, ?_⟩
    unfold readSign
    split
    · next heq => exact absurd heq (hds.ne_cons (by decide) rest _)
    · next heq => exact absurd heq (hds.ne_cons (by decide) rest _)
    · rfl
  · exact ⟨1, rfl⟩
  · exact ⟨-1, rfl⟩

theorem readFraction_of_ne {s : Input} (h : ∀ rest, s ≠ .char '.' :: rest) :
    readFraction s = .ok ([], s) := by
  unfold readFraction
  split
  · exact absurd rfl (h _)
  · rfl

theorem readExponent_of_ne {s : Input} (h : ∀ rest, s ≠ .char 'e' :: rest ∧ s ≠ .char 'E' :: rest) :
    readExponent s = .ok (0, s) := by
  unfold readExponent
  split
  · exact absurd rfl (h _).1
  · exact absurd rfl (h _).2
  · rfl

theorem skipMinus_of_ne {s : Input} (h : ∀ rest, s ≠ .char '-' :: rest) : skipMinus s = s := by
  unfold skipMinus
  split
  · exact absurd rfl (h _)
  · rfl

namespace IsNumber

variable {minus whole fraction exponent : Text} (h : IsNumber minus whole fraction exponent)
  {rest : Input}

include h

theorem endsDigits_exponent (hrest : EndsNumber rest) : EndsDigits (ofText exponent ++ rest) := by
  obtain hnil | ⟨e, sign, ds, he, -, -, hexponent⟩ := h.exponent
  · rw [hnil]
    exact hrest.endsDigits
  · rw [hexponent]
    obtain rfl | rfl := he <;> exact endsDigits_cons (by decide)

theorem endsDigits_fraction (hrest : EndsNumber rest) :
    EndsDigits (ofText fraction ++ (ofText exponent ++ rest)) := by
  obtain hnil | ⟨ds, -, hfraction⟩ := h.fraction
  · rw [hnil]
    exact h.endsDigits_exponent hrest
  · rw [hfraction]
    exact endsDigits_cons (by decide)

theorem readWhole_append (hrest : EndsDigits rest) :
    readWhole (ofText whole ++ rest) = .ok (whole.map digitValue, rest) := by
  obtain ⟨hdigits, hzero⟩ := h.whole
  rw [readWhole, readSomeDigits_append hdigits hrest]
  split
  · -- A zero in front of another digit is not written.
    next d ds rest' heq =>
    obtain ⟨hvalues, -⟩ := Prod.mk.inj (Except.ok.inj heq)
    obtain ⟨c, cs, rfl, hc, hcs⟩ := List.map_eq_cons_iff.1 hvalues
    obtain rfl := eq_zero_of_digitValue (hdigits.2 c List.mem_cons_self) hc
    obtain rfl := (List.cons.inj (hzero rfl)).2
    cases hcs
  · rfl

theorem readFraction_append (hrest : EndsNumber rest) :
    ∃ ds, readFraction (ofText fraction ++ (ofText exponent ++ rest)) =
      .ok (ds, ofText exponent ++ rest) := by
  obtain hnil | ⟨ds, hds, hfraction⟩ := h.fraction
  · refine ⟨[], ?_⟩
    rw [hnil]
    apply readFraction_of_ne
    intro r hr
    obtain hnil | ⟨e, sign, ds, he, -, -, hexponent⟩ := h.exponent
    · rw [hnil] at hr
      exact (hrest (.char '.') (congrArg List.head? hr)).2.1 rfl
    · rw [hexponent] at hr
      obtain rfl | rfl := he <;> cases hr
  · refine ⟨ds.map digitValue, ?_⟩
    rw [hfraction]
    exact readSomeDigits_append hds (h.endsDigits_exponent hrest)

theorem readExponent_append (hrest : EndsNumber rest) :
    ∃ n, readExponent (ofText exponent ++ rest) = .ok (n, rest) := by
  obtain hnil | ⟨e, sign, ds, he, hsign, hds, hexponent⟩ := h.exponent
  · refine ⟨0, ?_⟩
    rw [hnil]
    apply readExponent_of_ne
    exact fun r => ⟨fun hr => (hrest (.char 'e') (congrArg List.head? hr)).2.2.1 rfl,
      fun hr => (hrest (.char 'E') (congrArg List.head? hr)).2.2.2 rfl⟩
  · obtain ⟨n, hn⟩ := readSign_append hsign hds rest
    refine ⟨n * ofDigits (ds.map digitValue), ?_⟩
    have hdigits := readSomeDigits_append hds hrest.endsDigits
    have hinput : ofText exponent ++ rest = .char e :: (ofText (sign ++ ds) ++ rest) := by
      rw [hexponent]
      rfl
    rw [hinput]
    obtain rfl | rfl := he <;> simp only [readExponent, hn, hdigits]

/-- **A number that is not wanted is passed over.** -/
theorem skipNumber_append (hrest : EndsNumber rest) :
    skipNumber (ofText (minus ++ whole ++ fraction ++ exponent) ++ rest) = .ok rest := by
  have hminus : skipMinus (ofText (minus ++ whole ++ fraction ++ exponent) ++ rest) =
      ofText whole ++ (ofText fraction ++ (ofText exponent ++ rest)) := by
    simp only [ofText_append, List.append_assoc]
    obtain hnil | hsign := h.minus
    · rw [hnil]
      exact skipMinus_of_ne fun r => h.whole.1.ne_cons (by decide) _ r
    · rw [hsign]
      rfl
  obtain ⟨ds, hfraction⟩ := h.readFraction_append hrest
  obtain ⟨n, hexponent⟩ := h.readExponent_append hrest
  rw [skipNumber, readNumber, hminus, h.readWhole_append (h.endsDigits_fraction hrest)]
  simp only [hfraction, hexponent]

end IsNumber

end ScriptLexer.Json
