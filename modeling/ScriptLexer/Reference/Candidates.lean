import ScriptLexer.ErrorKind
import ScriptLexer.Path.Parts

/-!
# Files that a reference may mean

A reference is a path as seen from the folder of its script, with either slash as separator
(`referencePath`).

Files with the extension `sql` may have variants for a dialect. `candidates` lists, most specific
first, the files that a path may mean: for `name.sql` and dialect `D` these are `name.D.sql`,
`name (D).sql` and `name.sql`, all in one folder; for any other extension it is the path alone. An
`sql` file needs a name that is not blank.
-/

namespace ScriptLexer

/-- The character with `\` turned into `/`. -/
def slashed (c : Char) : Char := if c = '\\' then '/' else c

/-- The path that the reference `r` means in a script of `folder`. -/
def referencePath (folder : Path) (r : Text) : Path := folder.join ⟨r.map slashed⟩

/-- The extension of files that may have variants. -/
def variantExtension : Text := "sql".toList

/-- The two names of the variants of `stem.extension` for a dialect. -/
def variantNames (dialect stem extension : Text) : List Text :=
  [stem ++ '.' :: dialect ++ '.' :: extension,
    stem ++ ' ' :: '(' :: dialect ++ ')' :: '.' :: extension]

/-- The files that a path may mean, most specific first. -/
def candidates (dialect : Text) (p : Path) : Except ErrorKind (List Path) :=
  match splitLastDot (p.fileName?.getD []) with
  | none => .ok [p]
  | some (stem, extension) =>
    if !Text.sameIgnoringCase extension variantExtension then .ok [p]
    else if stem.isBlank then .error (.emptyFileName p)
    else
      .ok ((variantNames dialect stem extension).map (fun n => p.folder.join ⟨n⟩) ++ [p])

end ScriptLexer
