import ScriptLexer.LexicalError
import ScriptLexer.Lexeme.Scan
import ScriptLexer.Reference.Resolver
import ScriptLexer.Token

/-!
# Tokenizing scripts

Scripts are read in order into one list of tokens. Each script ends with an end-of-file token. The
first error ends the run; the tokens before it are kept.

A script is split into lexemes first, by its text alone. Then the lexemes are given their meaning
from left to right: layout and comments have none, a reference means the text that the resolver
finds, and any other lexeme means its own value. So the content of a referenced file never changes
how a script is split.
-/

namespace ScriptLexer

/-- The tokens of a run, and the error that ended it early. -/
structure Outcome where
  tokens : List Token
  error : Option LexicalError
  deriving DecidableEq, Repr

namespace Outcome

def failed (e : LexicalError) : Outcome := ⟨[], some e⟩

def cons (t : Token) (o : Outcome) : Outcome := ⟨t :: o.tokens, o.error⟩

/-- The outcome of a second run after that of a first one without error. -/
def append (o o' : Outcome) : Outcome := ⟨o.tokens ++ o'.tokens, o'.error⟩

def isOk (o : Outcome) : Bool := o.error.isNone

/-- The tokens of a run without error, or the error. -/
def result (o : Outcome) : Except LexicalError (List Token) :=
  match o.error with
  | some e => .error e
  | none => .ok o.tokens

/-- The tokens with the numbers of their scripts, when the first of them belongs to script `n`:
every end-of-file token is the last of its script. -/
def numbered (n : Nat) : List Token → List (Nat × Token)
  | [] => []
  | t :: ts => (n, t) :: numbered (if t.isEndOfFile then n + 1 else n) ts

/-- The number of scripts that were read to their end. -/
def finished (o : Outcome) : Nat := o.tokens.countP Token.isEndOfFile

end Outcome

namespace Resolver

/-- The kind and value that a lexeme has for a parser; layout and comments have none. -/
def meaning (r : Resolver) (folder : Path) :
    Lexeme → Traced (Except ErrorKind (Option (TokenKind × Text)))
  | .blank _ => pure (.ok none)
  | .comment _ => pure (.ok none)
  | .word run => pure (.ok (some (.text, run)))
  | .quoted _ value => pure (.ok (some (.text, value)))
  | .special c => pure (.ok (some (.special, [c])))
  | .reference path => do
    match ← r.resolve (referencePath folder path) with
    | .ok text => pure (.ok (some (.text, text)))
    | .error kind => pure (.error kind)

/-- The tokens of the lexemes of a script from an offset on; `fault` is what ends them. -/
def tokensOf (r : Resolver) (s : Script) (fault : Option Fault) :
    Nat → List Lexeme → Traced Outcome
  | offset, [] =>
    match fault with
    | none => pure ⟨[Token.endOfFile s], none⟩
    | some f => pure (.failed ⟨f.kind, s, offset, f.length⟩)
  | offset, l :: ls => do
    match ← r.meaning s.folder l with
    | .error kind => pure (.failed ⟨kind, s, offset, none⟩)
    | .ok none => r.tokensOf s fault (offset + l.length) ls
    | .ok (some (kind, value)) =>
      let token : Token := ⟨kind, value, s, offset, offset + l.length⟩
      Outcome.cons token <$> r.tokensOf s fault (offset + l.length) ls

def tokenizeScript (r : Resolver) (s : Script) : Traced Outcome :=
  r.tokensOf s (lex s.text).fault 0 (lex s.text).lexemes

def tokenize (r : Resolver) : List Script → Traced Outcome
  | [] => pure ⟨[], none⟩
  | s :: ss => do
    let first ← r.tokenizeScript s
    if first.isOk then first.append <$> r.tokenize ss else pure first

end Resolver

end ScriptLexer
