import ScriptLexer.Json.Input

/-!
# JSON numbers

`readNumber` reads a number as its digits before and after the point and its exponent.

`isTooLarge` says whether a number is beyond the range of double precision. The digits are gathered
into a significand as long as it fits 64 bits; the digits after that only count for the exponent,
or not at all when they follow the point. The significand and the power of ten are each rounded to
53 bits, and the number is too large when the product of the two rounds to 2 ^ 1024 or above.
-/

namespace ScriptLexer.Json

/-- A number as written, without its sign. -/
structure Number where
  whole : List Nat
  fraction : List Nat
  exponent : Int
  deriving DecidableEq, Repr

/-- The value of a decimal digit. -/
def digit? : Symbol → Option Nat
  | .char c => if '0' ≤ c ∧ c ≤ '9' then some (c.toNat - 0x30) else none
  | .stray _ => none

/-- The digits at the start, and the input after them. -/
def readDigits : Input → List Nat × Input
  | [] => ([], [])
  | x :: rest =>
    match digit? x with
    | some d =>
      let r := readDigits rest
      (d :: r.1, r.2)
    | none => ([], x :: rest)

/-- At least one digit. -/
def readSomeDigits (s : Input) : Except Problem (List Nat × Input) :=
  match readDigits s with
  | ([], []) => .error .truncated
  | ([], _ :: _) => .error .malformed
  | (ds, rest) => .ok (ds, rest)

/-- The number that digits write. -/
def ofDigits (ds : List Nat) : Nat := ds.foldl (fun n d => n * 10 + d) 0

/-- The digits before the point; a zero stands alone. -/
def readWhole (s : Input) : Except Problem (List Nat × Input) :=
  match readSomeDigits s with
  | .ok (0 :: _ :: _, _) => .error .malformed
  | r => r

/-- The digits after the point, if a point follows. -/
def readFraction : Input → Except Problem (List Nat × Input)
  | .char '.' :: rest => readSomeDigits rest
  | s => .ok ([], s)

/-- The sign of an exponent, and the input after it. -/
def readSign : Input → Int × Input
  | .char '+' :: rest => (1, rest)
  | .char '-' :: rest => (-1, rest)
  | s => (1, s)

/-- The exponent, if one follows. -/
def readExponent (s : Input) : Except Problem (Int × Input) :=
  match s with
  | .char 'e' :: rest | .char 'E' :: rest =>
    match readSomeDigits (readSign rest).2 with
    | .ok (ds, rest') => .ok ((readSign rest).1 * ofDigits ds, rest')
    | .error e => .error e
  | s => .ok (0, s)

/-- The input after a minus sign, if there is one. -/
def skipMinus : Input → Input
  | .char '-' :: rest => rest
  | s => s

def readNumber (s : Input) : Except Problem (Number × Input) :=
  match readWhole (skipMinus s) with
  | .error e => .error e
  | .ok (whole, rest) =>
    match readFraction rest with
    | .error e => .error e
    | .ok (fraction, rest) =>
      match readExponent rest with
      | .error e => .error e
      | .ok (exponent, rest) => .ok (⟨whole, fraction, exponent⟩, rest)

/-- The input after a number that is not wanted. Whatever is wrong with it, it is malformed. -/
def skipNumber (s : Input) : Except Problem Input :=
  match readNumber s with
  | .ok (_, rest) => .ok rest
  | .error _ => .error .malformed

/-! ## What is left is shorter -/

theorem readDigits_length (s : Input) :
    (readDigits s).1.length + (readDigits s).2.length = s.length := by
  induction s with
  | nil => rfl
  | cons x s ih =>
    simp only [readDigits]
    split
    · simp only [List.length_cons]
      omega
    · simp

theorem readSomeDigits_length {s rest : Input} {ds : List Nat}
    (h : readSomeDigits s = .ok (ds, rest)) : rest.length < s.length := by
  have hl := readDigits_length s
  unfold readSomeDigits at h
  split at h
  · simp at h
  · simp at h
  · next ds' rest' h1 h2 hr =>
    simp only [Except.ok.injEq, Prod.mk.injEq] at h
    obtain ⟨rfl, rfl⟩ := h
    rw [hr] at hl
    cases ds' with
    | nil => cases rest' <;> simp_all
    | cons d ds' =>
      simp only [List.length_cons] at hl
      omega

theorem readWhole_length {s rest : Input} {ds : List Nat} (h : readWhole s = .ok (ds, rest)) :
    rest.length < s.length := by
  unfold readWhole at h
  split at h
  · simp at h
  · exact readSomeDigits_length h

theorem readFraction_length {s rest : Input} {ds : List Nat}
    (h : readFraction s = .ok (ds, rest)) : rest.length ≤ s.length := by
  unfold readFraction at h
  split at h
  · exact Nat.le_of_lt (Nat.lt_succ_of_lt (readSomeDigits_length h))
  · simp only [Except.ok.injEq, Prod.mk.injEq] at h
    exact Nat.le_of_eq (congrArg List.length h.2.symm)

theorem readSign_length (s : Input) : (readSign s).2.length ≤ s.length := by
  unfold readSign
  split <;> simp

theorem readExponent_length {s rest : Input} {n : Int} (h : readExponent s = .ok (n, rest)) :
    rest.length ≤ s.length := by
  unfold readExponent at h
  split at h
  · next r =>
    split at h
    · next hd =>
      simp only [Except.ok.injEq, Prod.mk.injEq] at h
      rw [← h.2]
      have := readSomeDigits_length hd
      have := readSign_length r
      simp only [List.length_cons]
      omega
    · simp at h
  · next r =>
    split at h
    · next hd =>
      simp only [Except.ok.injEq, Prod.mk.injEq] at h
      rw [← h.2]
      have := readSomeDigits_length hd
      have := readSign_length r
      simp only [List.length_cons]
      omega
    · simp at h
  · simp only [Except.ok.injEq, Prod.mk.injEq] at h
    exact Nat.le_of_eq (congrArg List.length h.2.symm)

theorem skipMinus_length (s : Input) : (skipMinus s).length ≤ s.length := by
  unfold skipMinus
  split <;> simp

theorem readNumber_length {s rest : Input} {n : Number} (h : readNumber s = .ok (n, rest)) :
    rest.length < s.length := by
  unfold readNumber at h
  split at h
  · simp at h
  next hw =>
  split at h
  · simp at h
  next hf =>
  split at h
  · simp at h
  next he =>
  simp only [Except.ok.injEq, Prod.mk.injEq] at h
  rw [← h.2]
  have h1 := skipMinus_length s
  have h2 := readWhole_length hw
  have h3 := readFraction_length hf
  have h4 := readExponent_length he
  omega

theorem skipNumber_length {s rest : Input} (h : skipNumber s = .ok rest) :
    rest.length < s.length := by
  unfold skipNumber at h
  split at h
  · next hr =>
    cases h
    exact readNumber_length hr
  · simp at h

/-! ## Range -/

def powerOf (base exponent : Nat) : Nat := Nat.pow base exponent

/-- Gathers digits while the significand fits 64 bits; also says how many were gathered. -/
def gather (significand : Nat) : List Nat → Nat × Nat
  | [] => (significand, 0)
  | d :: ds =>
    if significand * 10 + d < powerOf 2 64 then
      let r := gather (significand * 10 + d) ds
      (r.1, r.2 + 1)
    else (significand, 0)

/-- The nearest number with at most 53 significant bits; of two the even one. -/
def roundTo53 (n : Nat) : Nat :=
  if n < powerOf 2 53 then n
  else
    let unit := powerOf 2 (n.log2 - 52)
    let q := n / unit
    let r := n % unit
    if 2 * r < unit ∨ (2 * r = unit ∧ q % 2 = 0) then q * unit else (q + 1) * unit

/-- Whether `significand * 10 ^ exponent` is beyond the range of double precision. -/
def exceedsDouble (significand : Nat) (exponent : Int) : Bool :=
  significand != 0 && 0 ≤ exponent &&
    (308 < exponent ||
      powerOf 2 1024 - powerOf 2 970 ≤
        roundTo53 significand * roundTo53 (powerOf 10 exponent.toNat))

/-- Whether the number is beyond the range of double precision. -/
def Number.isTooLarge (n : Number) : Bool :=
  let (significand, gathered) := gather 0 n.whole
  let (significand, fractional) := gather significand n.fraction
  exceedsDouble significand ((n.whole.length - gathered : Nat) - fractional + n.exponent)

end ScriptLexer.Json
