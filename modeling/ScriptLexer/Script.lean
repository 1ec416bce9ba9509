import ScriptLexer.Path.Parts
import ScriptLexer.Text.Position

/-!
# Scripts

A script is a text with the path it was found at. References in it are seen from its folder.
-/

namespace ScriptLexer

/-- A text to be read, and its path. -/
structure Script where
  path : Path
  text : Text
  deriving DecidableEq, Repr

namespace Script

/-- The folder that references start from. -/
def folder (s : Script) : Path := s.path.folder

def length (s : Script) : Nat := s.text.length

/-- The line and column of a character. -/
def position (s : Script) (offset : Nat) : Position := Position.of s.text offset

/-- Whether two scripts have the same text and paths that address the same file. -/
def sameAs (s t : Script) : Bool := s.path.sameAs t.path && s.text == t.text

end Script

end ScriptLexer
