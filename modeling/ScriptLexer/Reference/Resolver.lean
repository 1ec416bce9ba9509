import ScriptLexer.Files.Access
import ScriptLexer.Reference.Candidates

/-!
# Resolving references

A `Resolver` turns the path of a reference into the text of a file: of the candidates for its
dialect the first that exists is read, and no other. A candidate that exists and cannot be read is
an error; there is no falling back to a later one.

`accesses_firstFile` gives the probes: the candidates in order, up to the first that exists.
-/

namespace ScriptLexer

/-- Finds and reads the files of references for one dialect. -/
structure Resolver where
  dialect : Text
  files : FileSystem

/-- The first path that is a file. -/
def FileSystem.firstFile (fs : FileSystem) : List Path → Traced (Option Path)
  | [] => pure none
  | p :: ps => do
    if ← fs.probe p then pure (some p) else fs.firstFile ps

namespace Resolver

/-- The text that a path stands for. -/
def resolve (r : Resolver) (p : Path) : Traced (Except ErrorKind Text) :=
  match candidates r.dialect p with
  | .error kind => pure (.error kind)
  | .ok ps => do
    match ← r.files.firstFile ps with
    | none => pure (.error (.fileNotFound ps))
    | some found =>
      match ← r.files.fetch found with
      | .ok text => pure (.ok text)
      | .error e => pure (.error (.fileUnreadable found e.message))

/-- The resolver as shown in diagnostics; the file system is left out. -/
def description (r : Resolver) : Text :=
  "ExternalTextResolver \x7b database_language: ".toList ++ Escaped.text r.dialect ++
    ", .. \x7d".toList

/-- The tokenizer that uses the resolver, as shown in diagnostics. -/
def tokenizerDescription (r : Resolver) : Text :=
  "Tokenizer \x7b resolver: ".toList ++ r.description ++ " \x7d".toList

end Resolver

/-! ## Which files are probed -/

namespace FileSystem

@[simp] theorem value_firstFile (fs : FileSystem) (ps : List Path) :
    (fs.firstFile ps).value = ps.find? fs.isFile := by
  induction ps with
  | nil => rfl
  | cons p ps ih =>
    cases h : fs.isFile p <;> simp [firstFile, probe, h, ih]

/-- **The probes are the candidates up to the first file.** -/
theorem accesses_firstFile (fs : FileSystem) (ps : List Path) :
    (fs.firstFile ps).accesses =
      (ps.takeWhile (fun p => !fs.isFile p) ++ (ps.find? fs.isFile).toList).map .isFile := by
  induction ps with
  | nil => rfl
  | cons p ps ih =>
    cases h : fs.isFile p <;> simp [firstFile, probe, h, ih]

end FileSystem

end ScriptLexer
