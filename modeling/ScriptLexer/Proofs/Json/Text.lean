import ScriptLexer.Proofs.Json.Grammar

/-!
# Strings are read as they are written

A string that is wanted is read as the text that it spells (`Spells.readText_append`), and one that is
not wanted is passed over (`IsBody.skipText_append`), whatever follows the closing quote. Both are
inductions over the pieces of the string, with a lemma on one piece each.

**Without its closing quote a string is truncated**, wherever it is cut (`Spells.readText_truncated`):
between two characters, inside an escape or inside a pair of escapes. Nothing that is there yet is
wrong, and a reader never takes the part of an escape for a character.

**Writing a text spells it** (`spells_escape`).
-/

namespace ScriptLexer.Json

/-! ## Prefixes -/

theorem prefix_append_cases {α : Type} {p a b : List α} (h : p <+: a ++ b) :
    (p <+: a ∧ p ≠ a) ∨ ∃ q, q <+: b ∧ p = a ++ q := by
  obtain hp | ⟨q, rfl⟩ := List.prefix_or_prefix_of_prefix h (List.prefix_append a b)
  · by_cases heq : p = a
    · exact .inr ⟨[], List.nil_prefix, by simp [heq]⟩
    · exact .inl ⟨hp, heq⟩
  · exact .inr ⟨q, (List.prefix_append_right_inj a).1 h, rfl⟩

theorem prefix_append_cons_cases {α : Type} {p a b : List α} {x : α} (h : p <+: a ++ x :: b) :
    p <+: a ∨ ∃ q, q <+: b ∧ p = a ++ x :: q := by
  obtain ⟨ha, -⟩ | ⟨q, hq, rfl⟩ := prefix_append_cases h
  · exact .inl ha
  · obtain rfl | ⟨r, rfl, hr⟩ := List.prefix_cons_iff.1 hq
    · exact .inl (by simp)
    · exact .inr ⟨r, hr, rfl⟩

/-! ## Hexadecimal digits -/

theorem IsHexDigit.read {d : Nat} {c : Char} (h : IsHexDigit d c) :
    hexDigit? (.char c) = some d ∧ (Symbol.char c).size = 1 := by
  have hlower : ∀ d < 16, hexDigit? (.char (Nat.digitChar d)) = some d ∧
      (Symbol.char (Nat.digitChar d)).size = 1 := by
    decide
  have hupper : ∀ d < 16, hexDigit? (.char (Nat.digitChar d).toUpper) = some d ∧
      (Symbol.char (Nat.digitChar d).toUpper).size = 1 := by
    decide
  obtain ⟨hd, rfl | rfl⟩ := h
  · exact hlower d hd
  · exact hupper d hd

theorem byteCount_ofText {t : Text} (h : ∀ c ∈ t, (Symbol.char c).size = 1) :
    byteCount (ofText t) = t.length := by
  induction t with
  | nil => rfl
  | cons c t ih =>
    rw [ofText_cons, byteCount, h c List.mem_cons_self, ih fun d hd => h d (List.mem_cons_of_mem c hd),
      List.length_cons, Nat.add_comm]

namespace IsHex

variable {n : Nat} {hex : Text} (h : IsHex n hex)

include h

theorem length_eq : hex.length = 4 := by
  cases h
  rfl

theorem size_eq {c : Char} (hc : c ∈ hex) : (Symbol.char c).size = 1 := by
  obtain @⟨a, b, c, d, w, x, y, z, ha, hb, hc, hd⟩ := h
  simp only [List.mem_cons, List.not_mem_nil, or_false] at hc
  obtain rfl | rfl | rfl | rfl := hc <;> exact (IsHexDigit.read ‹_›).2

theorem readHex_append (rest : Input) : readHex (ofText hex ++ rest) = .ok (n, rest) := by
  have hbytes : byteCount ((ofText hex ++ rest).take 4) = 4 := by
    have hlength : (ofText hex).length = 4 := (List.length_map _).trans h.length_eq
    rw [List.take_append_of_le_length (Nat.le_of_eq hlength.symm), List.take_of_length_le
      (Nat.le_of_eq hlength), byteCount_ofText fun c => h.size_eq, h.length_eq]
  obtain @⟨a, b, c, d, w, x, y, z, ha, hb, hc, hd⟩ := h
  rw [readHex.eq_def, hbytes]
  simp [ha.read.1, hb.read.1, hc.read.1, hd.read.1]

theorem readHex_truncated {p : Text} (hp : p <+: hex) (hne : p ≠ hex) :
    readHex (ofText p) = .error .truncated := by
  have hlength : p.length < 4 := by
    have hle := hp.length_le
    have hlt : p.length ≠ hex.length := fun heq => hne (hp.eq_of_length heq)
    have := h.length_eq
    omega
  have hbytes : byteCount (ofText p) = p.length :=
    byteCount_ofText fun c hc => h.size_eq (hp.subset hc)
  have htake : (ofText p).take 4 = ofText p :=
    List.take_of_length_le (by rw [ofText, List.length_map]; omega)
  rw [readHex.eq_def, htake, hbytes, if_pos hlength]

end IsHex

/-! ## Escapes -/

theorem shortEscape?_eq {e c : Char} (h : (e, c) ∈ letterEscapes) :
    shortEscape? e = some c ∧ e ≠ 'u' := by
  have hall : ∀ x ∈ letterEscapes, shortEscape? x.1 = some x.2 ∧ x.1 ≠ 'u' := by decide
  exact hall (e, c) h

theorem not_isSurrogate (c : Char) :
    isLowSurrogate c.toNat = false ∧ isHighSurrogate c.toNat = false := by
  have hvalid : c.toNat < 0xD800 ∨ 0xDFFF < c.toNat ∧ c.toNat < 0x110000 := c.valid
  simp only [isLowSurrogate, isHighSurrogate, Bool.and_eq_false_iff, decide_eq_false_iff_not]
  omega

theorem readUnicode_code {c : Char} {hex : Text} (h : IsHex c.toNat hex) (rest : Input) :
    readUnicode (ofText hex ++ rest) = .ok (c, rest) := by
  obtain ⟨hlow, hhigh⟩ := not_isSurrogate c
  simp [readUnicode, h.readHex_append, hlow, hhigh, Char.ofNat_toNat]

theorem isSurrogate_pair {n : Nat} (hn : n < 0x110000) :
    isLowSurrogate (0xD800 + (n - 0x10000) / 0x400) = false ∧
      isHighSurrogate (0xD800 + (n - 0x10000) / 0x400) = true ∧
      isLowSurrogate (0xDC00 + (n - 0x10000) % 0x400) = true := by
  simp only [isLowSurrogate, isHighSurrogate, Bool.and_eq_false_iff, Bool.and_eq_true,
    decide_eq_false_iff_not, decide_eq_true_eq]
  omega

section Pair

variable {c : Char} {high low : Text}
  (hhigh : IsHex (0xD800 + (c.toNat - 0x10000) / 0x400) high)
  (hlow : IsHex (0xDC00 + (c.toNat - 0x10000) % 0x400) low)

include hhigh

theorem readUnicode_high (rest : Input) :
    readUnicode (ofText high ++ rest) =
      ((expect ['\\', 'u'] rest).bind readHex).bind fun (low, rest) =>
        if isLowSurrogate low then
          .ok (Char.ofNat ((c.toNat - 0x10000) / 0x400 * 0x400 + (low - 0xDC00) + 0x10000), rest)
        else .error .malformed := by
  obtain ⟨hnotLow, hisHigh, -⟩ := isSurrogate_pair (Utf8.toNat_lt c)
  rw [readUnicode, hhigh.readHex_append]
  simp only [hnotLow, hisHigh, Nat.add_sub_cancel_left, Bool.not_true, Bool.false_eq_true, if_false]
  cases expect ['\\', 'u'] rest with
  | error e => rfl
  | ok rest => cases hnext : readHex rest <;> simp [Except.bind, hnext]

include hlow

theorem readUnicode_pair (hc : 0x10000 ≤ c.toNat) (rest : Input) :
    readUnicode (ofText (high ++ '\\' :: 'u' :: low) ++ rest) = .ok (c, rest) := by
  obtain ⟨-, -, hisLow⟩ := isSurrogate_pair (Utf8.toNat_lt c)
  have hvalue : (c.toNat - 0x10000) / 0x400 * 0x400 +
      (0xDC00 + (c.toNat - 0x10000) % 0x400 - 0xDC00) + 0x10000 = c.toNat := by
    omega
  rw [ofText_append, List.append_assoc, readUnicode_high hhigh]
  simp only [ofText_cons, List.cons_append, expect, if_true, Except.bind, hlow.readHex_append,
    hisLow, hvalue, Char.ofNat_toNat]

theorem readUnicode_pair_truncated {p : Text} (hp : p <+: high ++ '\\' :: 'u' :: low)
    (hne : p ≠ high ++ '\\' :: 'u' :: low) : readUnicode (ofText p) = .error .truncated := by
  obtain ⟨hp, hne⟩ | ⟨q, hq, rfl⟩ := prefix_append_cases hp
  · rw [readUnicode, hhigh.readHex_truncated hp hne]
  · rw [ofText_append, readUnicode_high hhigh]
    obtain rfl | ⟨r, rfl, hr⟩ := List.prefix_cons_iff.1 hq
    · rfl
    obtain rfl | ⟨t, rfl, ht⟩ := List.prefix_cons_iff.1 hr
    · rfl
    have htne : t ≠ low := fun heq => hne (by rw [heq])
    simp only [ofText_cons, expect, if_true, Except.bind, hlow.readHex_truncated ht htne]

end Pair

theorem readUnicode_code_truncated {n : Nat} {hex p : Text} (h : IsHex n hex) (hp : p <+: hex)
    (hne : p ≠ hex) : readUnicode (ofText p) = .error .truncated := by
  rw [readUnicode, h.readHex_truncated hp hne]

/-! ## Strings that are wanted -/

theorem readSymbols_quote (rest : Input) : readSymbols (.char '"' :: rest) = .ok ([], rest) := by
  rw [readSymbols, if_pos rfl]

theorem readSymbols_plain {c : Char} (h : IsPlain c) (rest : Input) :
    readSymbols (.char c :: rest) = prepend (.char c) (readSymbols rest) := by
  obtain ⟨hcontrol, hquote, hbackslash⟩ := h
  rw [readSymbols, if_neg hquote, if_neg hbackslash, if_neg (by omega)]

theorem readSymbols_escape {s rest : Input} {c : Char} (h : readEscape s = .ok (c, rest)) :
    readSymbols (.char '\\' :: s) = prepend (.char c) (readSymbols rest) := by
  rw [readSymbols, if_neg (by decide), if_pos rfl]
  split <;> simp_all

theorem readSymbols_escape_error {s : Input} {e : Problem} (h : readEscape s = .error e) :
    readSymbols (.char '\\' :: s) = .error e := by
  rw [readSymbols, if_neg (by decide), if_pos rfl]
  split <;> simp_all

theorem readEscape_unicode (s : Input) : readEscape (.char 'u' :: s) = readUnicode s := by
  rw [readEscape, if_pos rfl]

theorem readEscape_letter {e c : Char} (h : (e, c) ∈ letterEscapes) (rest : Input) :
    readEscape (.char e :: rest) = .ok (c, rest) := by
  obtain ⟨hescape, hu⟩ := shortEscape?_eq h
  simp [readEscape, hu, hescape]

theorem readSymbols_escape_truncated {p s : Text}
    (h : ∀ q, q <+: s → q ≠ s → readEscape (ofText q) = .error .truncated)
    (hp : p <+: '\\' :: s) (hne : p ≠ '\\' :: s) : readSymbols (ofText p) = .error .truncated := by
  obtain rfl | ⟨q, rfl, hq⟩ := List.prefix_cons_iff.1 hp
  · rw [ofText_nil, readSymbols]
  · exact readSymbols_escape_error (h q hq fun heq => hne (by rw [heq]))

theorem readEscape_unicode_truncated {p s : Text}
    (h : ∀ q, q <+: s → q ≠ s → readUnicode (ofText q) = .error .truncated)
    (hp : p <+: 'u' :: s) (hne : p ≠ 'u' :: s) : readEscape (ofText p) = .error .truncated := by
  obtain rfl | ⟨q, rfl, hq⟩ := List.prefix_cons_iff.1 hp
  · rfl
  · rw [ofText_cons, readEscape_unicode]
    exact h q hq fun heq => hne (by rw [heq])

namespace SpellsChar

variable {c : Char} {u : Text} (h : SpellsChar c u)

include h

/-- **One way to write a character is read as that character.** -/
theorem readSymbols_append (rest : Input) :
    readSymbols (ofText u ++ rest) = prepend (.char c) (readSymbols rest) := by
  cases h with
  | plain hc => exact readSymbols_plain hc rest
  | letter he => exact readSymbols_escape (readEscape_letter he rest)
  | code hhex =>
    apply readSymbols_escape
    show readEscape (.char 'u' :: (ofText _ ++ rest)) = _
    rw [readEscape_unicode, readUnicode_code hhex]
  | pair hc hhigh hlow =>
    apply readSymbols_escape
    show readEscape (.char 'u' :: (ofText (_ ++ '\\' :: 'u' :: _) ++ rest)) = _
    rw [readEscape_unicode, readUnicode_pair hhigh hlow hc]

theorem readSymbols_truncated {p : Text} (hp : p <+: u) (hne : p ≠ u) :
    readSymbols (ofText p) = .error .truncated := by
  cases h with
  | plain hc =>
    obtain rfl | ⟨q, rfl, hq⟩ := List.prefix_cons_iff.1 hp
    · rw [ofText_nil, readSymbols]
    · exact absurd (by rw [List.prefix_nil.1 hq]) hne
  | letter he =>
    refine readSymbols_escape_truncated (fun q hq hqne => ?_) hp hne
    obtain rfl | ⟨r, rfl, hr⟩ := List.prefix_cons_iff.1 hq
    · rfl
    · exact absurd (by rw [List.prefix_nil.1 hr]) hqne
  | code hhex =>
    refine readSymbols_escape_truncated (fun q => ?_) hp hne
    exact readEscape_unicode_truncated fun r => readUnicode_code_truncated hhex
  | pair hc hhigh hlow =>
    refine readSymbols_escape_truncated (fun q => ?_) hp hne
    exact readEscape_unicode_truncated fun r => readUnicode_pair_truncated hhigh hlow

end SpellsChar

namespace Spells

variable {t s : Text} (h : Spells t s)

include h

theorem readSymbols_append (rest : Input) :
    readSymbols (ofText s ++ .char '"' :: rest) = .ok (ofText t, rest) := by
  induction h with
  | nil => exact readSymbols_quote rest
  | cons hu hs ih =>
    rw [ofText_append, List.append_assoc, hu.readSymbols_append, ih]
    rfl

/-- **A string is read as the text that it spells.** -/
theorem readText_append (rest : Input) :
    readText (ofText s ++ .char '"' :: rest) = .ok (t, rest) := by
  have hchars : (ofText t).mapM Symbol.char? = some t := Utf8.mapM_char?_eq_some.2 rfl
  rw [readText, h.readSymbols_append]
  simp only [hchars]

/-- **Without its closing quote a string is truncated**, wherever it ends. -/
theorem readText_truncated {p : Text} (hp : p <+: s) : readText (ofText p) = .error .truncated := by
  have hsymbols : readSymbols (ofText p) = .error .truncated := by
    induction h generalizing p with
    | nil =>
      rw [List.prefix_nil.1 hp, ofText_nil, readSymbols]
    | cons hu hs ih =>
      obtain ⟨hp, hne⟩ | ⟨q, hq, rfl⟩ := prefix_append_cases hp
      · exact hu.readSymbols_truncated hp hne
      · rw [ofText_append, hu.readSymbols_append, ih hq]
        rfl
  rw [readText, hsymbols]

end Spells

/-! ## Strings that are written -/

theorem isHex_control {n : Nat} (h : n < 0x20) :
    IsHex n ['0', '0', Nat.digitChar (n / 16), Nat.digitChar (n % 16)] := by
  have hzero : IsHexDigit 0 '0' := ⟨by decide, .inl rfl⟩
  have hhigh : IsHexDigit (n / 16) (Nat.digitChar (n / 16)) := ⟨by omega, .inl rfl⟩
  have hlow : IsHexDigit (n % 16) (Nat.digitChar (n % 16)) := ⟨by omega, .inl rfl⟩
  have hhex := IsHex.digits hzero hzero hhigh hlow
  rwa [show ((0 * 16 + 0) * 16 + n / 16) * 16 + n % 16 = n by omega] at hhex

theorem spellsChar_escape (c : Char) : SpellsChar c (escape c) := by
  unfold escape
  split
  case h_8 hquote hbackslash _ _ _ _ _ =>
    split
    · next hcontrol => exact .code (isHex_control hcontrol)
    · next hcontrol => exact .plain ⟨Nat.le_of_not_lt hcontrol, hquote, hbackslash⟩
  all_goals exact .letter (by decide)

/-- **A text is written as one of its spellings.** -/
theorem spells_escape (t : Text) : Spells t (t.flatMap escape) := by
  induction t with
  | nil => exact .nil
  | cons c t ih =>
    rw [List.flatMap_cons]
    exact .cons (spellsChar_escape c) ih

/-! ## Strings that are not wanted -/

theorem skipText_plain {c : Char} (h : IsPlain c) (rest : Input) :
    skipText (.char c :: rest) = skipText rest := by
  obtain ⟨hcontrol, hquote, hbackslash⟩ := h
  rw [skipText, if_neg hquote, if_neg hbackslash, if_neg (by omega)]

theorem skipText_escape {s rest : Input} (h : skipEscape s = .ok rest) :
    skipText (.char '\\' :: s) = skipText rest := by
  rw [skipText, if_neg (by decide), if_pos rfl]
  split <;> simp_all

theorem IsPiece.skipText_append {u : Text} (h : IsPiece u) (rest : Input) :
    skipText (ofText u ++ rest) = skipText rest := by
  cases h with
  | plain hc => exact skipText_plain hc rest
  | letter he =>
    obtain ⟨hescape, hu⟩ := shortEscape?_eq he
    exact skipText_escape (by simp [skipEscape, hu, hescape])
  | code hhex =>
    apply skipText_escape
    show skipEscape (.char 'u' :: (ofText _ ++ rest)) = _
    rw [skipEscape, if_pos rfl, hhex.readHex_append]
    rfl

/-- **A string that is not wanted is passed over.** -/
theorem IsBody.skipText_append {s : Text} (h : IsBody s) (rest : Input) :
    skipText (ofText s ++ .char '"' :: rest) = .ok rest := by
  induction h with
  | nil => rw [ofText_nil, List.nil_append, skipText, if_pos rfl]
  | cons hu hs ih => rw [ofText_append, List.append_assoc, hu.skipText_append, ih]

end ScriptLexer.Json
