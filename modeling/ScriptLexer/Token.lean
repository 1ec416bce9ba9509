import ScriptLexer.Script

/-!
# Tokens

What a parser is handed: a kind, a value and the span of characters that the token covers in its
script. Words, quoted texts and referenced files are all of kind `text`.
-/

namespace ScriptLexer

inductive TokenKind where
  | text
  | special
  /-- Comments are not handed out; parsers may use the kind for tokens of their own. -/
  | comment
  | endOfFile
  deriving DecidableEq, Repr

namespace TokenKind

def all : List TokenKind := [text, special, comment, endOfFile]

def name : TokenKind → Text
  | text => "Text".toList
  | special => "Special".toList
  | comment => "Comment".toList
  | endOfFile => "EndOfFile".toList

def ofName? (n : Text) : Option TokenKind := all.find? fun k => k.name == n

/-- What the user is told about a name that is no kind. -/
def unknownName : Text := "Matching variant not found".toList

theorem ofName?_name (k : TokenKind) : ofName? k.name = some k := by cases k <;> rfl

end TokenKind

/-- A token: its value, and the characters from `start` to before `stop` of its script. -/
structure Token where
  kind : TokenKind
  value : Text
  script : Script
  start : Nat
  stop : Nat
  deriving DecidableEq, Repr

namespace Token

/-- The token after the last character of a script. -/
def endOfFile (s : Script) : Token := ⟨.endOfFile, [], s, s.length, s.length⟩

def length (t : Token) : Nat := t.stop - t.start

def isEmpty (t : Token) : Bool := t.start == t.stop

def isEndOfFile (t : Token) : Bool := t.kind == .endOfFile

/-- Whether the token is the given special character. -/
def isSpecial (t : Token) (c : Char) : Bool := t.kind == .special && t.value == [c]

/-- The line and column of the start. -/
def position (t : Token) : Position := t.script.position t.start

end Token

end ScriptLexer
