import ScriptLexer.Proofs.Tokens.Run

/-!
# The same text in another script

A text is tokenized in the same way wherever it stands: only the offsets change, and the script that
the tokens point at (`value_tokensFrom_movedTo`). Two conditions are needed. Both scripts have the
same path, as references start from its folder; and both end where the text does, as the end of the
file stands at the length of the script.
-/

namespace ScriptLexer

/-- The token as a token of `s`, `d` characters further on. -/
def Token.movedTo (s : Script) (d : Nat) (a : Token) : Token :=
  { a with script := s, start := a.start + d, stop := a.stop + d }

/-- The error as an error of `s`, `d` characters further on. -/
def LexicalError.movedTo (s : Script) (d : Nat) (e : LexicalError) : LexicalError :=
  { e with script := s, offset := e.offset + d }

/-- The outcome as one of `s`, `d` characters further on. -/
def Outcome.movedTo (s : Script) (d : Nat) (o : Outcome) : Outcome :=
  ⟨o.tokens.map (Token.movedTo s d), o.error.map (LexicalError.movedTo s d)⟩

section

variable {d : Nat}

theorem tokensAt_movedTo {s s' : Script} (content : Text → Text) (n : Nat) (ls : List Lexeme) :
    (tokensAt content s n ls).map (Token.movedTo s' d) = tokensAt content s' (n + d) ls := by
  induction ls generalizing n with
  | nil => rfl
  | cons l ls ih =>
    have htoken : (l.token? content s n).map (Token.movedTo s' d) =
        l.token? content s' (n + d) := by
      cases hm : l.meaning content <;>
        simp [Lexeme.token?, hm, Token.movedTo, Nat.add_right_comm]
    rw [tokensAt, List.map_append, ih, tokensAt, ← htoken, Nat.add_right_comm]
    cases l.token? content s n <;> rfl

namespace Resolver

theorem value_tokensOf_movedTo (r : Resolver) (s s' : Script) (hpath : s.path = s'.path)
    (hlen : s.length + d = s'.length) (fault : Option Fault) (n : Nat) (ls : List Lexeme) :
    (r.tokensOf s fault n ls).value.movedTo s' d = (r.tokensOf s' fault (n + d) ls).value := by
  induction ls generalizing n with
  | nil =>
    cases fault with
    | none => simp [tokensOf, Outcome.movedTo, Token.movedTo, Token.endOfFile, hlen]
    | some f => rfl
  | cons l ls ih =>
    have hfolder : s.folder = s'.folder := congrArg Path.folder hpath
    rw [tokensOf, tokensOf, Traced.value_bind, Traced.value_bind, hfolder]
    have htail := ih (n + l.length)
    rw [Nat.add_right_comm n l.length d] at htail
    cases (r.meaning s'.folder l).value with
    | error kind => rfl
    | ok m =>
      cases m with
      | none => exact htail
      | some m =>
        simp only [Traced.value_map, ← htail]
        simp [Outcome.movedTo, Outcome.cons, Token.movedTo, Nat.add_right_comm]

/-- **Only offsets change** when a text stands in another script with the same path. -/
theorem value_tokensFrom_movedTo (r : Resolver) (s s' : Script) (hpath : s.path = s'.path)
    (hlen : s.length + d = s'.length) (n : Nat) (t : Text) :
    (r.tokensFrom s n t).value.movedTo s' d = (r.tokensFrom s' (n + d) t).value :=
  r.value_tokensOf_movedTo s s' hpath hlen _ n _

end Resolver

end

end ScriptLexer
