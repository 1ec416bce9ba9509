import ScriptLexer.Path.Basic
import ScriptLexer.Text.Escaped

/-!
# Kinds of lexical errors

What can stop the reading of a script: three defects of its text, and three ways in which a
well-formed reference leads to no text. Every kind has a stable code and a message.
-/

namespace ScriptLexer

/-- A reason to stop reading a script. -/
inductive ErrorKind where
  /-- The script ends inside a quoted text. -/
  | unterminatedQuote (quote : Char)
  /-- The script ends inside a reference. -/
  | unterminatedReference
  /-- A reference holds a character that no path may hold. -/
  | invalidPathCharacter (found : Char)
  /-- A reference names a file by its extension alone. -/
  | emptyFileName (path : Path)
  /-- None of the files that a reference may mean exists. -/
  | fileNotFound (candidates : List Path)
  /-- The file of a reference exists and cannot be read. -/
  | fileUnreadable (path : Path) (reason : Text)
  deriving DecidableEq, Repr

namespace ErrorKind

def code : ErrorKind → Text
  | unterminatedQuote _ => "LEX0001".toList
  | unterminatedReference => "LEX0002".toList
  | invalidPathCharacter _ => "LEX0003".toList
  | emptyFileName _ => "LEX0004".toList
  | fileNotFound _ => "LEX0005".toList
  | fileUnreadable _ _ => "LEX0006".toList

/-- What the user is told. -/
def message : ErrorKind → Text
  | unterminatedQuote quote =>
    "Unexpected end of script within quoted string. Missing closing character: ".toList ++
      [quote, '.']
  | unterminatedReference =>
    "Unexpected end of script within external text reference. ".toList ++
      "Missing closing character: '>'.".toList
  | invalidPathCharacter found =>
    "Invalid file name character ".toList ++ Escaped.character found ++
      " within external text reference.".toList
  | emptyFileName path =>
    "External text reference has an empty file name (".toList ++ path.text ++ ").".toList
  | fileNotFound candidates =>
    "Cannot find the file referenced by external text reference. Looked for:\n".toList ++
      Text.joined ['\n'] (candidates.map Path.text)
  | fileUnreadable path reason =>
    "Cannot read the file referenced by external text reference (".toList ++ path.text ++
      "): ".toList ++ reason

end ErrorKind

end ScriptLexer
