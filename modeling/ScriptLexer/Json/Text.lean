import ScriptLexer.Json.Input

/-!
# JSON strings

`quote` writes a text as a JSON string. `readText` reads a string that is wanted, after its opening
quote; `skipText` passes over one that is not. The two differ in what they refuse: surrogates that
do not come in a pair, and bytes that are no characters, matter only in a string that is wanted.
Such bytes are found when the string closes.

A `\u` escape takes four bytes before it looks at them, so an input that has fewer is truncated.
-/

namespace ScriptLexer.Json

/-! ## Writing -/

/-- A character as it stands in a JSON string. -/
def escape (c : Char) : Text :=
  match c with
  | '"' => ['\\', '"']
  | '\\' => ['\\', '\\']
  | '\x08' => ['\\', 'b']
  | '\t' => ['\\', 't']
  | '\n' => ['\\', 'n']
  | '\x0c' => ['\\', 'f']
  | '\r' => ['\\', 'r']
  | c =>
    if c.toNat < 0x20 then
      ['\\', 'u', '0', '0', Nat.digitChar (c.toNat / 16), Nat.digitChar (c.toNat % 16)]
    else [c]

/-- A text as a JSON string. -/
def quote (t : Text) : Text := '"' :: t.flatMap escape ++ ['"']

/-! ## Escapes -/

/-- The value of a hexadecimal digit. -/
def hexDigit? : Symbol → Option Nat
  | .char c =>
    if '0' ≤ c ∧ c ≤ '9' then some (c.toNat - 0x30)
    else if 'a' ≤ c ∧ c ≤ 'f' then some (c.toNat - 0x61 + 10)
    else if 'A' ≤ c ∧ c ≤ 'F' then some (c.toNat - 0x41 + 10)
    else none
  | .stray _ => none

/-- The number written in the next four bytes, in hexadecimal. -/
def readHex (s : Input) : Except Problem (Nat × Input) :=
  if byteCount (s.take 4) < 4 then .error .truncated
  else
    match s with
    | a :: b :: c :: d :: rest =>
      match hexDigit? a, hexDigit? b, hexDigit? c, hexDigit? d with
      | some a, some b, some c, some d => .ok (((a * 16 + b) * 16 + c) * 16 + d, rest)
      | _, _, _, _ => .error .malformed
    | _ => .error .malformed

/-- A number that only the first half of a pair may have. -/
def isHighSurrogate (n : Nat) : Bool := 0xD800 ≤ n && n < 0xDC00

/-- A number that only the second half of a pair may have. -/
def isLowSurrogate (n : Nat) : Bool := 0xDC00 ≤ n && n < 0xE000

/-- The character of a `\u` escape, after the `u`. -/
def readUnicode (s : Input) : Except Problem (Char × Input) :=
  match readHex s with
  | .error e => .error e
  | .ok (high, rest) =>
    if isLowSurrogate high then .error .malformed
    else if !isHighSurrogate high then .ok (Char.ofNat high, rest)
    else
      match expect ['\\', 'u'] rest with
      | .error e => .error e
      | .ok rest =>
        match readHex rest with
        | .error e => .error e
        | .ok (low, rest) =>
          if isLowSurrogate low then
            .ok (Char.ofNat ((high - 0xD800) * 0x400 + (low - 0xDC00) + 0x10000), rest)
          else .error .malformed

/-- The character that a letter after a backslash stands for. -/
def shortEscape? : Char → Option Char
  | '"' => some '"'
  | '\\' => some '\\'
  | '/' => some '/'
  | 'b' => some '\x08'
  | 'f' => some '\x0c'
  | 'n' => some '\n'
  | 'r' => some '\r'
  | 't' => some '\t'
  | _ => none

/-- The character of an escape, after the backslash. -/
def readEscape : Input → Except Problem (Char × Input)
  | [] => .error .truncated
  | .stray _ :: _ => .error .malformed
  | .char c :: rest =>
    if c = 'u' then readUnicode rest
    else
      match shortEscape? c with
      | some d => .ok (d, rest)
      | none => .error .malformed

/-- The input after an escape that is not wanted, after the backslash. -/
def skipEscape : Input → Except Problem Input
  | [] => .error .truncated
  | .stray _ :: _ => .error .malformed
  | .char c :: rest =>
    if c = 'u' then (readHex rest).map (·.2)
    else if (shortEscape? c).isSome then .ok rest
    else .error .malformed

theorem readHex_length {s rest : Input} {n : Nat} (h : readHex s = .ok (n, rest)) :
    rest.length < s.length := by
  unfold readHex at h
  split at h
  · simp at h
  · split at h
    · split at h
      · simp only [Except.ok.injEq, Prod.mk.injEq] at h
        rw [← h.2]
        simp only [List.length_cons]
        omega
      · simp at h
    · simp at h

theorem readUnicode_length {s rest : Input} {c : Char} (h : readUnicode s = .ok (c, rest)) :
    rest.length < s.length := by
  unfold readUnicode at h
  split at h
  · simp at h
  next hr =>
  have h1 := readHex_length hr
  split at h
  · simp at h
  split at h
  · simp only [Except.ok.injEq, Prod.mk.injEq] at h
    rw [← h.2]
    exact h1
  split at h
  · simp at h
  next he =>
  have h2 := expect_length he
  split at h
  · simp at h
  next hl =>
  have h3 := readHex_length hl
  split at h
  · simp only [Except.ok.injEq, Prod.mk.injEq] at h
    rw [← h.2]
    omega
  · simp at h

theorem readEscape_length {s rest : Input} {c : Char} (h : readEscape s = .ok (c, rest)) :
    rest.length < s.length := by
  unfold readEscape at h
  split at h
  · simp at h
  · simp at h
  split at h
  · exact Nat.lt_succ_of_lt (readUnicode_length h)
  split at h
  · simp only [Except.ok.injEq, Prod.mk.injEq] at h
    simp [← h.2]
  · simp at h

theorem skipEscape_length {s rest : Input} (h : skipEscape s = .ok rest) :
    rest.length < s.length := by
  unfold skipEscape at h
  split at h
  · simp at h
  · simp at h
  split at h
  · next r _ =>
    cases hr : readHex r with
    | error e => simp [hr, Except.map] at h
    | ok p =>
      simp only [hr, Except.map, Except.ok.injEq] at h
      have hr : readHex r = .ok (p.1, p.2) := hr
      have := readHex_length hr
      simp only [← h, List.length_cons]
      omega
  split at h
  · cases h
    simp
  · simp at h

/-! ## Reading -/

/-- A symbol in front of those read so far. -/
def prepend (x : Symbol) :
    Except Problem (List Symbol × Input) → Except Problem (List Symbol × Input)
  | .ok (xs, rest) => .ok (x :: xs, rest)
  | .error e => .error e

/-- The symbols that a string stands for, and the input after its closing quote. -/
def readSymbols (s : Input) : Except Problem (List Symbol × Input) :=
  match s with
  | [] => .error .truncated
  | .stray b :: rest => prepend (.stray b) (readSymbols rest)
  | .char c :: rest =>
    if c = '"' then .ok ([], rest)
    else if c = '\\' then
      match _h : readEscape rest with
      | .error e => .error e
      | .ok (d, rest) => prepend (.char d) (readSymbols rest)
    else if c.toNat < 0x20 then .error .malformed
    else prepend (.char c) (readSymbols rest)
termination_by s.length
decreasing_by
  · simp
  · exact Nat.lt_succ_of_lt (readEscape_length _h)
  · simp

/-- The text of a string that is wanted, after its opening quote. -/
def readText (s : Input) : Except Problem (Text × Input) :=
  match readSymbols s with
  | .error e => .error e
  | .ok (xs, rest) =>
    match xs.mapM Symbol.char? with
    | some t => .ok (t, rest)
    | none => .error .malformed

/-- The input after a string that is not wanted, after its opening quote. -/
def skipText (s : Input) : Except Problem Input :=
  match s with
  | [] => .error .truncated
  | .stray _ :: rest => skipText rest
  | .char c :: rest =>
    if c = '"' then .ok rest
    else if c = '\\' then
      match _h : skipEscape rest with
      | .error e => .error e
      | .ok rest => skipText rest
    else if c.toNat < 0x20 then .error .malformed
    else skipText rest
termination_by s.length
decreasing_by
  · simp
  · exact Nat.lt_succ_of_lt (skipEscape_length _h)
  · simp

theorem prepend_eq_ok {x : Symbol} {r : Except Problem (List Symbol × Input)}
    {xs : List Symbol} {rest : Input} (h : prepend x r = .ok (xs, rest)) :
    ∃ ys, r = .ok (ys, rest) ∧ xs = x :: ys := by
  unfold prepend at h
  split at h
  · next ys rest' =>
    simp only [Except.ok.injEq, Prod.mk.injEq] at h
    exact ⟨ys, by simp [h.2], h.1.symm⟩
  · simp at h

theorem readSymbols_length {s rest : Input} {xs : List Symbol}
    (h : readSymbols s = .ok (xs, rest)) : rest.length < s.length := by
  fun_induction readSymbols s generalizing xs with
  | case1 => simp at h
  | case2 b r ih =>
    obtain ⟨ys, hy, -⟩ := prepend_eq_ok h
    exact Nat.lt_succ_of_lt (ih hy)
  | case3 r =>
    simp only [Except.ok.injEq, Prod.mk.injEq] at h
    simp [← h.2]
  | case4 => simp at h
  | case5 r d r' he _ ih =>
    obtain ⟨ys, hy, -⟩ := prepend_eq_ok h
    have := ih hy
    have := readEscape_length he
    simp only [List.length_cons]
    omega
  | case6 => simp at h
  | case7 c r _ _ _ ih =>
    obtain ⟨ys, hy, -⟩ := prepend_eq_ok h
    exact Nat.lt_succ_of_lt (ih hy)

theorem readText_length {s rest : Input} {t : Text} (h : readText s = .ok (t, rest)) :
    rest.length < s.length := by
  unfold readText at h
  split at h
  · simp at h
  next hr =>
  split at h
  · simp only [Except.ok.injEq, Prod.mk.injEq] at h
    rw [← h.2]
    exact readSymbols_length hr
  · simp at h

theorem skipText_length {s rest : Input} (h : skipText s = .ok rest) :
    rest.length < s.length := by
  fun_induction skipText s with
  | case1 => simp at h
  | case2 b r ih => exact Nat.lt_succ_of_lt (ih h)
  | case3 r =>
    cases h
    simp
  | case4 => simp at h
  | case5 r r' he _ ih =>
    have := ih h
    have := skipEscape_length he
    simp only [List.length_cons]
    omega
  | case6 => simp at h
  | case7 c r _ _ _ ih => exact Nat.lt_succ_of_lt (ih h)

end ScriptLexer.Json
