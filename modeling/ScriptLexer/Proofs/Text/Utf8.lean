import ScriptLexer.Text.Utf8

/-!
# Bytes that are no text

Bytes encode no text if and only if, behind some text, they go wrong in one of five ways
(`decode?_eq_none_iff`): a byte that starts nothing, a sequence that breaks off, and three kinds of
complete sequence that no character has, because it is longer than its code point needs, or because
its code point is half of a surrogate pair or too large.

A `Pattern` is the common form of these sequences: a first byte that announces continuation bytes,
and as many of them as are there, six bits each. It says what is written, without a reader, so
`IsDefect` does too.

`encode_eq_flatMap`: the bytes of a text are those that strings have.
-/

namespace ScriptLexer.Utf8

theorem encodeChar_eq (c : Char) : encodeChar c = String.utf8EncodeChar c := by
  have hc := toNat_lt c
  have hval : c.val.toNat = c.toNat := rfl
  simp only [encodeChar, String.utf8EncodeChar, continuation, hval, Nat.add_comm (_ % 0x40) 0x80]
  by_cases h1 : c.toNat < 0x80
  · rw [if_pos h1, if_pos (by omega)]
  by_cases h2 : c.toNat < 0x800
  · rw [if_neg h1, if_pos h2, if_neg (by omega), if_pos (by omega),
      show c.toNat / 0x40 % 0x20 + 0xC0 = 0xC0 + c.toNat / 0x40 by omega]
  by_cases h3 : c.toNat < 0x10000
  · rw [if_neg h1, if_neg h2, if_pos h3, if_neg (by omega), if_neg (by omega), if_pos (by omega),
      show c.toNat / 0x1000 % 0x10 + 0xE0 = 0xE0 + c.toNat / 0x1000 by omega]
  · rw [if_neg h1, if_neg h2, if_neg h3, if_neg (by omega), if_neg (by omega), if_neg (by omega),
      show c.toNat / 0x40000 % 0x08 + 0xF0 = 0xF0 + c.toNat / 0x40000 by omega]

theorem encode_eq_flatMap (t : Text) : encode t = t.flatMap String.utf8EncodeChar :=
  congrArg (t.flatMap ·) (funext encodeChar_eq)

/-! ## Sequences as written -/

/-- A byte that only continues a sequence. -/
def IsContinuation (b : UInt8) : Prop := 0x80 ≤ b.toNat ∧ b.toNat < 0xC0

/-- A first byte that announces continuation bytes, and those that follow it. -/
structure Pattern where
  /-- The number of continuation bytes announced. -/
  announced : Nat
  /-- The bits in the first byte. -/
  high : Nat
  /-- The bits in each continuation byte. -/
  groups : List Nat
  first : (announced = 1 ∧ high < 0x20) ∨ (announced = 2 ∧ high < 0x10) ∨ (announced = 3 ∧ high < 0x08)
  sixBits : ∀ g ∈ groups, g < 0x40
  bounded : groups.length ≤ announced

/-- What a first byte has in front of its own bits. -/
def mark : Nat → Nat
  | 1 => 0xC0
  | 2 => 0xE0
  | _ => 0xF0

/-- The least code point that needs this many continuation bytes. -/
def least : Nat → Nat
  | 1 => 0x80
  | 2 => 0x800
  | _ => 0x10000

/-- The bits put together. -/
def assembled (high : Nat) (groups : List Nat) : Nat := groups.foldl (fun n g => n * 0x40 + g) high

namespace Pattern

variable (p : Pattern)

def bytes : List UInt8 := UInt8.ofNat (mark p.announced + p.high) :: p.groups.map continuation

def value : Nat := assembled p.high p.groups

end Pattern

/-- What bytes that start with no character start with. -/
inductive IsDefect : List UInt8 → Prop where
  /-- A continuation byte without a first byte, or a byte that UTF-8 does not use. -/
  | stray {b : UInt8} {rest : List UInt8} : IsContinuation b ∨ 0xF8 ≤ b.toNat → IsDefect (b :: rest)
  /-- A sequence breaks off. -/
  | truncated {rest : List UInt8} (p : Pattern) : p.groups.length < p.announced →
      (∀ b, rest.head? = some b → ¬ IsContinuation b) → IsDefect (p.bytes ++ rest)
  /-- A sequence is longer than its code point needs. -/
  | overlong {rest : List UInt8} (p : Pattern) : p.groups.length = p.announced →
      p.value < least p.announced → IsDefect (p.bytes ++ rest)
  /-- The code point is half of a surrogate pair. -/
  | surrogate {rest : List UInt8} (p : Pattern) : p.groups.length = p.announced →
      0xD800 ≤ p.value ∧ p.value < 0xE000 → IsDefect (p.bytes ++ rest)
  /-- The code point is larger than any character has. -/
  | tooLarge {rest : List UInt8} (p : Pattern) : p.groups.length = p.announced →
      0x110000 ≤ p.value → IsDefect (p.bytes ++ rest)

/-! ## Reading a sequence -/

theorem continued_map {high : Nat} {groups : List Nat} (h : ∀ g ∈ groups, g < 0x40)
    (rest : List UInt8) :
    continued groups.length high (groups.map continuation ++ rest) =
      some (assembled high groups, rest) := by
  induction groups generalizing high with
  | nil => rfl
  | cons g groups ih =>
    have hg : g % 0x40 = g := Nat.mod_eq_of_lt (h g List.mem_cons_self)
    rw [List.length_cons, List.map_cons, List.cons_append, continued_continuation, hg,
      ih fun g' hg' => h g' (List.mem_cons_of_mem g hg')]
    rfl

theorem continued_eq_none {k high : Nat} {groups : List Nat} {rest : List UInt8}
    (hk : groups.length < k) (hrest : ∀ b, rest.head? = some b → ¬ IsContinuation b) :
    continued k high (groups.map continuation ++ rest) = none := by
  induction groups generalizing k high with
  | nil =>
    obtain ⟨k, rfl⟩ := Nat.exists_eq_add_of_lt hk
    cases rest with
    | nil => rfl
    | cons b rest =>
      have hb : ¬ (0x80 ≤ b.toNat ∧ b.toNat < 0xC0) := hrest b rfl
      simp [continued, hb]
  | cons g groups ih =>
    obtain ⟨k, rfl⟩ : ∃ k', k = k' + 1 := ⟨k - 1, by omega⟩
    rw [List.map_cons, List.cons_append, continued_continuation]
    exact ih (by simpa using hk)

theorem exists_groups (k : Nat) (s : List UInt8) :
    ∃ (groups : List Nat) (rest : List UInt8), s = groups.map continuation ++ rest ∧
      (∀ g ∈ groups, g < 0x40) ∧ groups.length ≤ k ∧
      (groups.length = k ∨ ∀ b, rest.head? = some b → ¬ IsContinuation b) := by
  induction k generalizing s with
  | zero => exact ⟨[], s, rfl, by simp, Nat.le_refl 0, .inl rfl⟩
  | succ k ih =>
    cases s with
    | nil => exact ⟨[], [], rfl, by simp, Nat.zero_le _, .inr (by simp)⟩
    | cons b s =>
      by_cases hb : IsContinuation b
      · obtain ⟨groups, rest, rfl, hgroups, hlength, hends⟩ := ih s
        have hbyte : continuation (b.toNat - 0x80) = b := by
          obtain ⟨hlow, hhigh⟩ := hb
          rw [continuation, Nat.mod_eq_of_lt (by omega), Nat.add_sub_cancel' hlow, UInt8.ofNat_toNat]
        refine ⟨(b.toNat - 0x80) :: groups, rest, by simp [hbyte], ?_, by simpa using hlength, ?_⟩
        · obtain ⟨-, hhigh⟩ := hb
          exact List.forall_mem_cons.2 ⟨by omega, hgroups⟩
        · simpa using hends
      · exact ⟨[], b :: s, rfl, by simp, Nat.zero_le _, .inr (by simpa using hb)⟩

theorem next?_pattern (p : Pattern) (rest : List UInt8) :
    next? (p.bytes ++ rest) =
      sequence? p.announced p.high (least p.announced) (p.groups.map continuation ++ rest) := by
  simp only [Pattern.bytes, List.cons_append, next?, UInt8.toNat_ofNat']
  obtain ⟨hk, hhigh⟩ | ⟨hk, hhigh⟩ | ⟨hk, hhigh⟩ := p.first
  · rw [hk, mark, Nat.mod_eq_of_lt (by omega), if_neg (by omega), if_neg (by omega),
      if_pos (by omega), Nat.add_sub_cancel_left, least]
  · rw [hk, mark, Nat.mod_eq_of_lt (by omega), if_neg (by omega), if_neg (by omega),
      if_neg (by omega), if_pos (by omega), Nat.add_sub_cancel_left, least]
  · rw [hk, mark, Nat.mod_eq_of_lt (by omega), if_neg (by omega), if_neg (by omega),
      if_neg (by omega), if_neg (by omega), if_pos (by omega), Nat.add_sub_cancel_left, least]
    all_goals simp

theorem next?_complete {p : Pattern} (h : p.groups.length = p.announced) (rest : List UInt8) :
    next? (p.bytes ++ rest) = (scalar? (least p.announced) p.value).map (·, rest) := by
  rw [next?_pattern, sequence?, ← h, continued_map p.sixBits]
  rfl

theorem next?_truncated {p : Pattern} {rest : List UInt8} (h : p.groups.length < p.announced)
    (hrest : ∀ b, rest.head? = some b → ¬ IsContinuation b) : next? (p.bytes ++ rest) = none := by
  rw [next?_pattern, sequence?, continued_eq_none h hrest]
  rfl

theorem scalar?_eq_none_iff {low n : Nat} :
    scalar? low n = none ↔ n < low ∨ (0xD800 ≤ n ∧ n < 0xE000) ∨ 0x110000 ≤ n := by
  simp only [scalar?, Nat.isValidChar]
  split <;> simp <;> omega

theorem exists_pattern {b : UInt8} (hlow : 0xC0 ≤ b.toNat) (hhigh : b.toNat < 0xF8)
    (s : List UInt8) :
    ∃ (p : Pattern) (rest : List UInt8), b :: s = p.bytes ++ rest ∧
      (p.groups.length = p.announced ∨
        p.groups.length < p.announced ∧ ∀ b, rest.head? = some b → ¬ IsContinuation b) := by
  obtain ⟨k, high, hfirst, hbyte⟩ : ∃ k high,
      ((k = 1 ∧ high < 0x20) ∨ (k = 2 ∧ high < 0x10) ∨ (k = 3 ∧ high < 0x08)) ∧
        mark k + high = b.toNat := by
    by_cases h2 : b.toNat < 0xE0
    · exact ⟨1, b.toNat - 0xC0, .inl ⟨rfl, by omega⟩, Nat.add_sub_cancel' hlow⟩
    have hlow2 : 0xE0 ≤ b.toNat := by omega
    by_cases h3 : b.toNat < 0xF0
    · exact ⟨2, b.toNat - 0xE0, .inr (.inl ⟨rfl, by omega⟩), Nat.add_sub_cancel' hlow2⟩
    have hlow3 : 0xF0 ≤ b.toNat := by omega
    exact ⟨3, b.toNat - 0xF0, .inr (.inr ⟨rfl, by omega⟩), Nat.add_sub_cancel' hlow3⟩
  obtain ⟨groups, rest, rfl, hgroups, hlength, hends⟩ := exists_groups k s
  refine ⟨⟨k, high, groups, hfirst, hgroups, hlength⟩, rest, ?_, ?_⟩
  · simp [Pattern.bytes, hbyte, UInt8.ofNat_toNat]
  · by_cases hcomplete : groups.length = k
    · exact .inl hcomplete
    · exact .inr ⟨Nat.lt_of_le_of_ne hlength hcomplete, hends.resolve_left hcomplete⟩

/-! ## The defects -/

/-- **No character is read exactly where the bytes end or are defective.** -/
theorem next?_eq_none_iff {s : List UInt8} : next? s = none ↔ s = [] ∨ IsDefect s := by
  constructor
  · intro h
    cases s with
    | nil => exact .inl rfl
    | cons b s =>
      refine .inr ?_
      by_cases hascii : b.toNat < 0x80
      · simp [next?, hascii] at h
      by_cases hcontinuation : b.toNat < 0xC0
      · exact .stray (.inl ⟨by omega, hcontinuation⟩)
      by_cases hunused : 0xF8 ≤ b.toNat
      · exact .stray (.inr hunused)
      obtain ⟨p, rest, hbytes, hcomplete | ⟨hshort, hends⟩⟩ :=
        exists_pattern (by omega : 0xC0 ≤ b.toNat) (by omega) s
      · rw [hbytes, next?_complete hcomplete, Option.map_eq_none_iff, scalar?_eq_none_iff] at h
        rw [hbytes]
        obtain hlow | hsurrogate | hlarge := h
        · exact .overlong p hcomplete hlow
        · exact .surrogate p hcomplete hsurrogate
        · exact .tooLarge p hcomplete hlarge
      · rw [hbytes]
        exact .truncated p hshort hends
  · rintro (rfl | h)
    · rfl
    cases h with
    | stray h =>
      rename_i b rest
      have hb := b.toNat_lt
      obtain ⟨hlow, hhigh⟩ | hunused := h
      · rw [next?, if_neg (by omega), if_pos (by omega)]
      · rw [next?, if_neg (by omega), if_neg (by omega), if_neg (by omega), if_neg (by omega),
          if_neg (by omega)]
    | truncated p hshort hends => exact next?_truncated hshort hends
    | overlong p hcomplete hlow =>
      rw [next?_complete hcomplete, scalar?_eq_none_iff.2 (.inl hlow)]
      rfl
    | surrogate p hcomplete hsurrogate =>
      rw [next?_complete hcomplete, scalar?_eq_none_iff.2 (.inr (.inl hsurrogate))]
      rfl
    | tooLarge p hcomplete hlarge =>
      rw [next?_complete hcomplete, scalar?_eq_none_iff.2 (.inr (.inr hlarge))]
      rfl

theorem IsDefect.ne_nil {s : List UInt8} (h : IsDefect s) : s ≠ [] := by
  cases h <;> simp [Pattern.bytes]

theorem decode?_encode_append (t : Text) (rest : List UInt8) :
    decode? (encode t ++ rest) = (decode? rest).map (t ++ ·) := by
  rw [decode?, decode?, symbols_encode_append]
  induction t with
  | nil => simp
  | cons c t ih =>
    simp only [List.map_cons, List.cons_append, List.mapM_cons, Symbol.char?, ih]
    cases (symbols rest).mapM Symbol.char? <;> rfl

/-- **Bytes that encode no text have a defect behind a text.** -/
theorem decode?_eq_none_iff {s : List UInt8} :
    decode? s = none ↔ ∃ t rest, s = encode t ++ rest ∧ IsDefect rest := by
  constructor
  · intro h
    fun_induction symbols s with
    | case1 => simp [decode?, symbols] at h
    | case2 b bs c rest hnext ih =>
      have hbytes : b :: bs = encode [c] ++ rest := by
        rw [eq_encodeChar_append_of_next? hnext]
        simp [encode]
      rw [hbytes, decode?_encode_append, Option.map_eq_none_iff] at h
      obtain ⟨t, rest', rfl, hdefect⟩ := ih h
      exact ⟨c :: t, rest', by rw [hbytes]; simp [encode], hdefect⟩
    | case3 b bs hnext _ =>
      exact ⟨[], b :: bs, rfl, (next?_eq_none_iff.1 hnext).resolve_left (by simp)⟩
  · rintro ⟨t, rest, rfl, hdefect⟩
    rw [decode?_encode_append, Option.map_eq_none_iff]
    have hnext : next? rest = none := next?_eq_none_iff.2 (.inr hdefect)
    cases rest with
    | nil => exact absurd rfl hdefect.ne_nil
    | cons b bs =>
      rw [decode?, symbols]
      split
      · next h => simp [hnext] at h
      · simp [List.mapM_cons, Symbol.char?]

end ScriptLexer.Utf8
