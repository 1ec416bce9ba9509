import ScriptLexer.ErrorKind
import ScriptLexer.Script

/-!
# Lexical errors

Why and where the reading of a script stopped. The position is that of the first character of the
lexeme that failed; the length, where it is known, counts from there through the character at
fault.
-/

namespace ScriptLexer

/-- A reason to stop, and the place in a script. -/
structure LexicalError where
  kind : ErrorKind
  script : Script
  offset : Nat
  length : Option Nat
  deriving DecidableEq, Repr

namespace LexicalError

def code (e : LexicalError) : Text := e.kind.code

/-- What the user is told, without the place. -/
def message (e : LexicalError) : Text := e.kind.message

def position (e : LexicalError) : Position := e.script.position e.offset

/-- The error in one line: path, place, code and message. -/
def text (e : LexicalError) : Text :=
  e.script.path.text ++ '(' :: Text.ofNat e.position.line ++ ',' ::
    Text.ofNat e.position.column ++ "): ".toList ++ e.code ++ ' ' :: e.message

end LexicalError

end ScriptLexer
