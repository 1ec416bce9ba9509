import ScriptLexer.Text.Basic

/-!
# UTF-8

Texts as bytes. `encode` writes a text; `symbols` reads any bytes at all, giving each well-formed
sequence as its character and every byte that starts none as a stray byte; `decode?` accepts only
bytes without a stray one.

A sequence is well formed when it has the continuation bytes that its first byte announces, uses
the fewest bytes for its code point, and names a Unicode scalar value: overlong forms, surrogates
and values above U+10FFFF are refused.

* `next?_encodeChar_append`: a written character is read back, whatever follows it.
* `eq_encodeChar_append_of_next?`: what is read as a character is how that character is written.
* `decode?_eq_some_iff`: so a text is read exactly from the bytes that write it.
-/

namespace ScriptLexer

namespace Utf8

/-! ## Writing -/

/-- The continuation byte that carries the low six bits of `n`. -/
def continuation (n : Nat) : UInt8 := UInt8.ofNat (0x80 + n % 0x40)

/-- The bytes of one character. -/
def encodeChar (c : Char) : List UInt8 :=
  let n := c.toNat
  if n < 0x80 then [UInt8.ofNat n]
  else if n < 0x800 then [UInt8.ofNat (0xC0 + n / 0x40), continuation n]
  else if n < 0x10000 then
    [UInt8.ofNat (0xE0 + n / 0x1000), continuation (n / 0x40), continuation n]
  else
    [UInt8.ofNat (0xF0 + n / 0x40000), continuation (n / 0x1000), continuation (n / 0x40),
      continuation n]

def encode (t : Text) : List UInt8 := t.flatMap encodeChar

def size (t : Text) : Nat := (encode t).length

/-! ## Reading -/

/-- Appends the six bits of each of `k` continuation bytes to `high`. -/
def continued : Nat → Nat → List UInt8 → Option (Nat × List UInt8)
  | 0, high, rest => some (high, rest)
  | _ + 1, _, [] => none
  | k + 1, high, b :: rest =>
    if 0x80 ≤ b.toNat ∧ b.toNat < 0xC0 then continued k (high * 0x40 + (b.toNat - 0x80)) rest
    else none

/-- The character of code point `n`, unless `n` is below `least` or no scalar value. -/
def scalar? (least n : Nat) : Option Char :=
  if least ≤ n ∧ n.isValidChar then some (Char.ofNat n) else none

/-- A character whose first byte announces `k` continuation bytes and whose code point is at least
`least`. -/
def sequence? (k high least : Nat) (rest : List UInt8) : Option (Char × List UInt8) :=
  (continued k high rest).bind fun (n, rest) => (scalar? least n).map (·, rest)

/-- Reads one character. -/
def next? : List UInt8 → Option (Char × List UInt8)
  | [] => none
  | b :: rest =>
    let n := b.toNat
    if n < 0x80 then some (Char.ofNat n, rest)
    else if n < 0xC0 then none
    else if n < 0xE0 then sequence? 1 (n - 0xC0) 0x80 rest
    else if n < 0xF0 then sequence? 2 (n - 0xE0) 0x800 rest
    else if n < 0xF8 then sequence? 3 (n - 0xF0) 0x10000 rest
    else none

theorem continued_length {k high n : Nat} {s rest : List UInt8}
    (h : continued k high s = some (n, rest)) : s.length = k + rest.length := by
  induction k generalizing high s with
  | zero => simp only [continued, Option.some.injEq, Prod.mk.injEq] at h; simp [h.2]
  | succ k ih =>
    cases s with
    | nil => simp [continued] at h
    | cons b s =>
      simp only [continued] at h
      split at h
      · have := ih h; simp only [List.length_cons]; omega
      · simp at h

theorem sequence?_length {k high least : Nat} {s rest : List UInt8} {c : Char}
    (h : sequence? k high least s = some (c, rest)) : rest.length ≤ s.length := by
  simp only [sequence?, Option.bind_eq_some_iff, Option.map_eq_some_iff] at h
  obtain ⟨⟨n, r⟩, hr, d, -, he⟩ := h
  obtain ⟨-, rfl⟩ := Prod.mk.inj he
  have := continued_length hr
  dsimp only
  omega

theorem next?_length {s rest : List UInt8} {c : Char} (h : next? s = some (c, rest)) :
    rest.length < s.length := by
  cases s with
  | nil => simp [next?] at h
  | cons b s =>
    suffices rest.length ≤ s.length by simp only [List.length_cons]; omega
    simp only [next?] at h
    split at h
    · simp only [Option.some.injEq, Prod.mk.injEq] at h
      exact Nat.le_of_eq (congrArg List.length h.2.symm)
    split at h
    · simp at h
    split at h
    · exact sequence?_length h
    split at h
    · exact sequence?_length h
    split at h
    · exact sequence?_length h
    · simp at h

/-! ## Symbols -/

end Utf8

/-- A character, or a byte that is part of none. -/
inductive Symbol where
  | char (c : Char)
  | stray (b : UInt8)
  deriving DecidableEq, Repr

namespace Symbol

/-- The character of a symbol that is one. -/
def char? : Symbol → Option Char
  | char c => some c
  | stray _ => none

/-- The number of bytes a symbol was read from. -/
def size : Symbol → Nat
  | char c => (Utf8.encodeChar c).length
  | stray _ => 1

end Symbol

namespace Utf8

/-- Reads any bytes as characters and stray bytes. -/
def symbols (s : List UInt8) : List Symbol :=
  match s with
  | [] => []
  | b :: bs =>
    match _h : next? (b :: bs) with
    | some (c, rest) => .char c :: symbols rest
    | none => .stray b :: symbols bs
termination_by s.length
decreasing_by
  · exact next?_length _h
  · simp

/-- The text that the bytes encode, if they encode one. -/
def decode? (s : List UInt8) : Option Text := (symbols s).mapM Symbol.char?

/-! ## Reading undoes writing -/

theorem continued_continuation {k high n : Nat} (rest : List UInt8) :
    continued (k + 1) high (continuation n :: rest) =
      continued k (high * 0x40 + n % 0x40) rest := by
  have : (continuation n).toNat = 0x80 + n % 0x40 := by
    simp only [continuation, UInt8.toNat_ofNat']
    omega
  simp only [continued, this]
  rw [if_pos (by omega), Nat.add_sub_cancel_left]

theorem isValidChar_toNat (c : Char) : c.toNat.isValidChar := c.valid

theorem scalar?_toNat {least : Nat} {c : Char} (h : least ≤ c.toNat) :
    scalar? least c.toNat = some c := by
  rw [scalar?, if_pos ⟨h, isValidChar_toNat c⟩, Char.ofNat_toNat]

theorem toNat_lt (c : Char) : c.toNat < 0x110000 := by
  rcases isValidChar_toNat c with h | h <;> omega

/-- **A written character is read back.** -/
theorem next?_encodeChar_append (c : Char) (rest : List UInt8) :
    next? (encodeChar c ++ rest) = some (c, rest) := by
  have hc := toNat_lt c
  unfold encodeChar
  by_cases h1 : c.toNat < 0x80
  · simp only [h1, if_true, List.singleton_append, next?, UInt8.toNat_ofNat']
    rw [if_pos (by omega), Nat.mod_eq_of_lt (by omega), Char.ofNat_toNat]
  by_cases h2 : c.toNat < 0x800
  · simp only [h1, h2, if_true, if_false, List.cons_append, List.nil_append, next?,
      UInt8.toNat_ofNat']
    rw [Nat.mod_eq_of_lt (by omega), if_neg (by omega), if_neg (by omega), if_pos (by omega)]
    simp only [sequence?, continued_continuation]
    simp only [continued, Option.bind_some]
    rw [show (0xC0 + c.toNat / 0x40 - 0xC0) * 0x40 + c.toNat % 0x40 = c.toNat by omega,
      scalar?_toNat (by omega), Option.map_some]
  by_cases h3 : c.toNat < 0x10000
  · simp only [h1, h2, h3, if_true, if_false, List.cons_append, List.nil_append, next?,
      UInt8.toNat_ofNat']
    rw [Nat.mod_eq_of_lt (by omega), if_neg (by omega), if_neg (by omega), if_neg (by omega),
      if_pos (by omega)]
    simp only [sequence?, continued_continuation]
    simp only [continued, Option.bind_some]
    rw [show ((0xE0 + c.toNat / 0x1000 - 0xE0) * 0x40 + c.toNat / 0x40 % 0x40) * 0x40 +
        c.toNat % 0x40 = c.toNat by omega, scalar?_toNat (by omega), Option.map_some]
  · simp only [h1, h2, h3, if_false, List.cons_append, List.nil_append, next?,
      UInt8.toNat_ofNat']
    rw [Nat.mod_eq_of_lt (by omega), if_neg (by omega), if_neg (by omega), if_neg (by omega),
      if_neg (by omega), if_pos (by omega)]
    simp only [sequence?, continued_continuation]
    simp only [continued, Option.bind_some]
    rw [show (((0xF0 + c.toNat / 0x40000 - 0xF0) * 0x40 + c.toNat / 0x1000 % 0x40) * 0x40 +
        c.toNat / 0x40 % 0x40) * 0x40 + c.toNat % 0x40 = c.toNat by omega,
      scalar?_toNat (by omega), Option.map_some]

theorem symbols_cons_of_next? {s rest : List UInt8} {c : Char} (h : next? s = some (c, rest)) :
    symbols s = .char c :: symbols rest := by
  cases s with
  | nil => simp [next?] at h
  | cons b bs =>
    rw [symbols]
    split
    · next h' => rw [h'] at h; obtain ⟨rfl, rfl⟩ := Prod.mk.inj (Option.some.inj h); rfl
    · next h' => rw [h'] at h; simp at h

@[simp] theorem symbols_encode_append (t : Text) (rest : List UInt8) :
    symbols (encode t ++ rest) = t.map .char ++ symbols rest := by
  induction t with
  | nil => rfl
  | cons c t ih =>
    have : encode (c :: t) ++ rest = encodeChar c ++ (encode t ++ rest) := by
      simp [encode]
    rw [this, symbols_cons_of_next? (next?_encodeChar_append c _), ih]
    rfl

theorem mapM_char?_eq_some {xs : List Symbol} {t : Text} :
    xs.mapM Symbol.char? = some t ↔ xs = t.map .char := by
  induction xs generalizing t with
  | nil => cases t <;> simp
  | cons x xs ih =>
    cases x with
    | stray b => cases t <;> simp [List.mapM_cons, Symbol.char?]
    | char c =>
      simp only [List.mapM_cons, Symbol.char?, Option.bind_eq_bind, Option.bind_some,
        Option.bind_eq_some_iff, ih, Option.pure_def, Option.some.injEq]
      constructor
      · rintro ⟨u, rfl, rfl⟩
        rfl
      · intro h
        cases t with
        | nil => simp at h
        | cons d t =>
          simp only [List.map_cons, List.cons.injEq, Symbol.char.injEq] at h
          exact ⟨t, h.2, by rw [h.1]⟩

/-! ## Writing undoes reading -/

theorem toNat_ofNat {n : Nat} (h : n.isValidChar) : (Char.ofNat n).toNat = n := by
  rw [Char.ofNat, dif_pos h]
  rfl

theorem eq_of_scalar? {least n : Nat} {c : Char} (h : scalar? least n = some c) :
    c.toNat = n ∧ least ≤ n := by
  unfold scalar? at h
  split at h
  · next hn =>
    cases h
    exact ⟨toNat_ofNat hn.2, hn.1⟩
  · simp at h

/-- A byte read as a continuation is the one that its six bits are written with. -/
theorem exists_of_continued_succ {k high n : Nat} {s rest : List UInt8}
    (h : continued (k + 1) high s = some (n, rest)) :
    ∃ m t, m < 0x40 ∧ s = continuation m :: t ∧
      continued k (high * 0x40 + m) t = some (n, rest) := by
  cases s with
  | nil => simp [continued] at h
  | cons b t =>
    simp only [continued] at h
    split at h
    · next hb =>
      refine ⟨b.toNat - 0x80, t, by omega, ?_, h⟩
      rw [continuation, Nat.mod_eq_of_lt (by omega), Nat.add_sub_cancel' hb.1, UInt8.ofNat_toNat]
    · simp at h

theorem continuation_congr {m n : Nat} (h : m % 0x40 = n % 0x40) :
    continuation m = continuation n := by
  rw [continuation, continuation, h]

theorem exists_of_sequence? {k high least : Nat} {s rest : List UInt8} {c : Char}
    (h : sequence? k high least s = some (c, rest)) :
    continued k high s = some (c.toNat, rest) ∧ least ≤ c.toNat := by
  simp only [sequence?, Option.bind_eq_some_iff, Option.map_eq_some_iff] at h
  obtain ⟨⟨n, r⟩, hr, d, hd, he⟩ := h
  obtain ⟨rfl, rfl⟩ := Prod.mk.inj he
  obtain ⟨rfl, hl⟩ := eq_of_scalar? hd
  exact ⟨hr, hl⟩

/-- **What is read as a character is how that character is written.** -/
theorem eq_encodeChar_append_of_next? {s rest : List UInt8} {c : Char}
    (h : next? s = some (c, rest)) : s = encodeChar c ++ rest := by
  cases s with
  | nil => simp [next?] at h
  | cons b s =>
    have hb := b.toNat_lt
    simp only [next?] at h
    split at h
    · next h0 =>
      obtain ⟨rfl, rfl⟩ := Prod.mk.inj (Option.some.inj h)
      have hc : (Char.ofNat b.toNat).toNat = b.toNat := toNat_ofNat (Or.inl (by omega))
      simp only [encodeChar, hc, h0, if_true, UInt8.ofNat_toNat, List.singleton_append]
    split at h
    · simp at h
    split at h
    · next h1 h2 =>
      obtain ⟨hs, hl⟩ := exists_of_sequence? h
      obtain ⟨m, t, hm, rfl, ht⟩ := exists_of_continued_succ hs
      obtain ⟨hn, rfl⟩ := Prod.mk.inj (Option.some.inj ht)
      simp only [encodeChar]
      rw [if_neg (by omega), if_pos (by omega)]
      simp only [List.cons_append, List.nil_append]
      rw [show 0xC0 + c.toNat / 0x40 = b.toNat by omega, UInt8.ofNat_toNat,
        continuation_congr (show m % 0x40 = c.toNat % 0x40 by omega)]
    split at h
    · next h1 h2 h3 =>
      obtain ⟨hs, hl⟩ := exists_of_sequence? h
      obtain ⟨m, t, hm, rfl, ht⟩ := exists_of_continued_succ hs
      obtain ⟨m', t', hm', rfl, ht'⟩ := exists_of_continued_succ ht
      obtain ⟨hn, rfl⟩ := Prod.mk.inj (Option.some.inj ht')
      simp only [encodeChar]
      rw [if_neg (by omega), if_neg (by omega), if_pos (by omega)]
      simp only [List.cons_append, List.nil_append]
      rw [show 0xE0 + c.toNat / 0x1000 = b.toNat by omega, UInt8.ofNat_toNat,
        continuation_congr (show m % 0x40 = c.toNat / 0x40 % 0x40 by omega),
        continuation_congr (show m' % 0x40 = c.toNat % 0x40 by omega)]
    split at h
    · next h1 h2 h3 h4 =>
      obtain ⟨hs, hl⟩ := exists_of_sequence? h
      obtain ⟨m, t, hm, rfl, ht⟩ := exists_of_continued_succ hs
      obtain ⟨m', t', hm', rfl, ht'⟩ := exists_of_continued_succ ht
      obtain ⟨m'', t'', hm'', rfl, ht''⟩ := exists_of_continued_succ ht'
      obtain ⟨hn, rfl⟩ := Prod.mk.inj (Option.some.inj ht'')
      simp only [encodeChar]
      rw [if_neg (by omega), if_neg (by omega), if_neg (by omega)]
      simp only [List.cons_append, List.nil_append]
      rw [show 0xF0 + c.toNat / 0x40000 = b.toNat by omega, UInt8.ofNat_toNat,
        continuation_congr (show m % 0x40 = c.toNat / 0x1000 % 0x40 by omega),
        continuation_congr (show m' % 0x40 = c.toNat / 0x40 % 0x40 by omega),
        continuation_congr (show m'' % 0x40 = c.toNat % 0x40 by omega)]
    · simp at h

theorem eq_encode_of_symbols {s : List UInt8} {t : Text} (h : symbols s = t.map .char) :
    s = encode t := by
  fun_induction symbols s generalizing t with
  | case1 =>
    cases t with
    | nil => rfl
    | cons c t => simp at h
  | case2 b bs c rest hn ih =>
    cases t with
    | nil => simp at h
    | cons d t =>
      simp only [List.map_cons, List.cons.injEq, Symbol.char.injEq] at h
      obtain ⟨rfl, h⟩ := h
      rw [eq_encodeChar_append_of_next? hn, ih h]
      simp [encode]
  | case3 b bs hn ih => cases t <;> simp at h

/-- **A text is read exactly from the bytes that write it.** -/
theorem decode?_eq_some_iff {s : List UInt8} {t : Text} :
    decode? s = some t ↔ s = encode t := by
  rw [decode?, mapM_char?_eq_some]
  constructor
  · exact eq_encode_of_symbols
  · rintro rfl
    simpa [symbols] using symbols_encode_append t []

end Utf8

end ScriptLexer
