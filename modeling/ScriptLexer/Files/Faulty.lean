import ScriptLexer.Files.Access

/-!
# Files that cannot be read

`FileSystem.withFaults` makes chosen paths exist and fail when they are read, each with its own
cause, or as missing when it has none. All other paths behave as before.
-/

namespace ScriptLexer.FileSystem

/-- The last entry whose path addresses the same file as `p`. -/
def lastAt {α : Type} (p : Path) (entries : List (Path × α)) : Option α :=
  (entries.reverse.find? fun e => e.1.sameAs p).map (·.2)

/-- The file system in which the given paths exist and cannot be read. -/
def withFaults (fs : FileSystem) (faults : List (Path × Option Text)) : FileSystem where
  isFile p := (lastAt p faults).isSome || fs.isFile p
  read p :=
    match lastAt p faults with
    | some (some cause) => .error (.failed p cause)
    | some none => .error (.notFound p)
    | none => fs.read p

@[simp] theorem withFaults_nil (fs : FileSystem) : fs.withFaults [] = fs := by
  simp [withFaults, lastAt]

end ScriptLexer.FileSystem
