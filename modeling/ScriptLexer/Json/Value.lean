import ScriptLexer.Json.Number
import ScriptLexer.Json.Text

/-!
# JSON values

`skip` passes over a value that is not wanted. It keeps the brackets that are open, so values may
be nested to any depth.

`wrongType` says what is wrong with a value that stands where a string is wanted.
-/

namespace ScriptLexer.Json

inductive Bracket where
  | list
  | object
  deriving DecidableEq, Repr

def Bracket.closing : Bracket → Char
  | list => ']'
  | object => '\x7d'

/-- What `skip` comes to next: a value, the key of a member, or the end of a value. -/
inductive Stage where
  | value
  | member
  | after
  deriving DecidableEq, Repr

/-- Whether a number starts with the symbol. -/
def startsNumber (x : Symbol) : Bool := x == .char '-' || (digit? x).isSome

/-- The input after a value without brackets. -/
def skipScalar : Input → Except Problem Input
  | .char 'n' :: rest => expect ['u', 'l', 'l'] rest
  | .char 't' :: rest => expect ['r', 'u', 'e'] rest
  | .char 'f' :: rest => expect ['a', 'l', 's', 'e'] rest
  | .char '"' :: rest => skipText rest
  | x :: rest => if startsNumber x then skipNumber (x :: rest) else .error .malformed
  | [] => .error .truncated

theorem skipScalar_length {s rest : Input} (h : skipScalar s = .ok rest) :
    rest.length < s.length := by
  unfold skipScalar at h
  split at h
  · exact Nat.lt_succ_of_le (expect_length h)
  · exact Nat.lt_succ_of_le (expect_length h)
  · exact Nat.lt_succ_of_le (expect_length h)
  · exact Nat.lt_succ_of_lt (skipText_length h)
  · split at h
    · exact skipNumber_length h
    · simp at h
  · simp at h

/-- The input after the key of a member and its colon. -/
def skipKey (s : Input) : Except Problem Input :=
  match skipBlank s with
  | [] => .error .truncated
  | .char '"' :: rest =>
    match skipText rest with
    | .error e => .error e
    | .ok rest =>
      match skipBlank rest with
      | [] => .error .truncated
      | .char ':' :: rest => .ok rest
      | _ => .error .malformed
  | _ => .error .malformed

theorem length_lt_of_skipBlank {s rest : Input} {x : Symbol} (h : skipBlank s = x :: rest) :
    rest.length < s.length := by
  have := skipBlank_length s
  rw [h] at this
  exact this

theorem skipKey_length {s rest : Input} (h : skipKey s = .ok rest) : rest.length < s.length := by
  unfold skipKey at h
  split at h
  · simp at h
  · next hb =>
    have h1 := length_lt_of_skipBlank hb
    split at h
    · simp at h
    · next ht =>
      have h2 := skipText_length ht
      split at h
      · simp at h
      · next hc =>
        cases h
        have h3 := length_lt_of_skipBlank hc
        omega
      · simp at h
  · simp at h

/-- Passes over what is left of a value inside the given brackets, innermost first. -/
def skip (stage : Stage) (opened : List Bracket) (s : Input) : Except Problem Input :=
  match stage with
  | .value =>
    match _h : skipBlank s with
    | [] => .error .truncated
    | .char '[' :: rest =>
      match _h' : skipBlank rest with
      | .char ']' :: rest => skip .after opened rest
      | _ => skip .value (.list :: opened) rest
    | .char '\x7b' :: rest =>
      match _h' : skipBlank rest with
      | .char '\x7d' :: rest => skip .after opened rest
      | _ => skip .member (.object :: opened) rest
    | x :: rest =>
      match _h' : skipScalar (x :: rest) with
      | .error e => .error e
      | .ok rest => skip .after opened rest
  | .member =>
    match _h : skipKey s with
    | .error e => .error e
    | .ok rest => skip .value opened rest
  | .after =>
    match opened with
    | [] => .ok s
    | bracket :: outer =>
      match _h : skipBlank s with
      | [] => .error .truncated
      | x :: rest =>
        if x = .char ',' then
          skip (if bracket = .list then .value else .member) (bracket :: outer) rest
        else if x = .char bracket.closing then skip .after outer rest
        else .error .malformed
termination_by s.length
decreasing_by
  · exact Nat.lt_trans (length_lt_of_skipBlank _h') (length_lt_of_skipBlank _h)
  · exact length_lt_of_skipBlank _h
  · exact Nat.lt_trans (length_lt_of_skipBlank _h') (length_lt_of_skipBlank _h)
  · exact length_lt_of_skipBlank _h
  · exact Nat.lt_of_lt_of_le (skipScalar_length _h') (_h ▸ skipBlank_length s)
  · exact skipKey_length _h
  · exact length_lt_of_skipBlank _h
  · exact length_lt_of_skipBlank _h

theorem skip_length {stage : Stage} {opened : List Bracket} {s rest : Input}
    (h : skip stage opened s = .ok rest) : rest.length ≤ s.length := by
  fun_induction skip stage opened s with
  | case1 => simp at h
  | case2 opened s r hr r' hr' ih =>
    have := length_lt_of_skipBlank hr
    have := length_lt_of_skipBlank hr'
    have := ih h
    omega
  | case3 opened s r hr _ ih =>
    have := length_lt_of_skipBlank hr
    have := ih h
    omega
  | case4 opened s r hr r' hr' ih =>
    have := length_lt_of_skipBlank hr
    have := length_lt_of_skipBlank hr'
    have := ih h
    omega
  | case5 opened s r hr _ ih =>
    have := length_lt_of_skipBlank hr
    have := ih h
    omega
  | case6 => simp at h
  | case7 opened s x r _ _ hr r' hr' ih =>
    have := skipBlank_length s
    have := skipScalar_length hr'
    have := ih h
    simp only [hr] at *
    omega
  | case8 => simp at h
  | case9 opened s r hr ih =>
    have := skipKey_length hr
    have := ih h
    omega
  | case10 =>
    cases h
    exact Nat.le_refl _
  | case11 => simp at h
  | case12 s bracket outer r hr ih =>
    have := length_lt_of_skipBlank hr
    have := ih h
    omega
  | case13 s bracket outer r hr _ ih =>
    have := length_lt_of_skipBlank hr
    have := ih h
    omega
  | case14 => simp at h

/-- What is wrong with a value that stands where a string is wanted. -/
def wrongType : Input → Problem
  | [] => .truncated
  | .char 'n' :: rest => literal (expect ['u', 'l', 'l'] rest)
  | .char 't' :: rest => literal (expect ['r', 'u', 'e'] rest)
  | .char 'f' :: rest => literal (expect ['a', 'l', 's', 'e'] rest)
  | .char '[' :: _ => .mistyped
  | .char '\x7b' :: _ => .mistyped
  | .char '"' :: rest =>
    match readText rest with
    | .ok _ => .mistyped
    | .error e => e
  | x :: rest =>
    if startsNumber x then
      match readNumber (x :: rest) with
      | .ok (n, _) => if n.isTooLarge then .malformed else .mistyped
      | .error e => e
    else .malformed
where
  /-- A literal is of the wrong type once it is complete. -/
  literal : Except Problem Input → Problem
    | .ok _ => .mistyped
    | .error e => e

/-- The text of a value that must be a string. -/
def readString (s : Input) : Except Problem (Text × Input) :=
  match skipBlank s with
  | .char '"' :: rest => readText rest
  | s => .error (wrongType s)

end ScriptLexer.Json
