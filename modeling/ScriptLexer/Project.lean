import ScriptLexer.Config.Basic
import ScriptLexer.Files.Disk.Content
import ScriptLexer.Tokenizer

/-!
# Projects

A project is a folder of a disk; its scripts are the files below it that have the extension for
scripts. `loadScripts` reads them all, ordered by their paths as seen from the folder, so that the
order in which folders list their entries does not matter. The first script in that order that
cannot be read is an error. A root that is no folder has no scripts.

Links are followed. A folder is searched even when its own name has the extension. While a folder
inside is searched, the folders around it are still being listed; a folder that cannot be listed to
its end is an error, and then no script is read. What the host does not find is taken for no folder.
-/

namespace ScriptLexer

/-- Everything that can end the work on a project. -/
inductive Failure where
  | config (e : ConfigError)
  | files (e : ReadError)
  | lexical (e : LexicalError)
  /-- The host refused a request; it says why. -/
  | host (cause : Text)
  deriving DecidableEq, Repr

namespace Failure

/-- What the user is told, with the part of the work that failed. -/
def message? : Failure → Option Text
  | config e => e.message?.map ("Config error: ".toList ++ ·)
  | files e => some ("File system error: ".toList ++ e.message)
  | lexical e => some ("Lexical error: ".toList ++ e.text)
  | host cause => some ("IO error: ".toList ++ cause)

end Failure

namespace Disk

/-- More folders than one path can enter. Between two links a path only descends, and it follows at
most `linkLimit` links. -/
def depthBound (d : Disk) : Nat :=
  (linkLimit + 1) * ((d.nodes.map fun e => e.1.length).foldr max 0 + 1)

/-- What is found under each of the names, in order, up to the first failure. -/
def collect {α : Type} (find : Text → Except Text (List α)) : List Text → Except Text (List α)
  | [] => .ok []
  | name :: rest =>
    match find name with
    | .error cause => .error cause
    | .ok found =>
      match collect find rest with
      | .error cause => .error cause
      | .ok more => .ok (found ++ more)

/-- The scripts under an entry of a folder. `search` goes on where the entry is a folder. -/
def searchEntry (d : Disk) (extension : Text) (search : Path → Except Text (List (List Text)))
    (folder : Path) (name : Text) : Except Text (List (List Text)) :=
  let p := folder.join ⟨name⟩
  if d.isFolder p then (search p).map fun found => found.map (name :: ·)
  else if p.hasExtension extension then .ok [[name]]
  else .ok []

/-- The names that lead from a folder to the scripts below it, at most `depth` folders deep, when
the folder is the last of `level` that are being listed. -/
def scriptsBelow (d : Disk) (extension : Text) :
    Nat → Nat → Path → Except Text (List (List Text))
  | 0, _, _ => .ok []
  | depth + 1, level, folder =>
    let listing := d.list level folder
    let search := d.scriptsBelow extension depth (level + 1)
    match collect (d.searchEntry extension search folder) listing.names with
    | .error cause => .error cause
    | .ok found =>
      match listing.cause? with
      | some cause => .error cause
      | none => .ok found

/-- The scripts below a folder, by the names that lead to them, in order. -/
def scripts (d : Disk) (extension : Text) (root : Path) : Except Text (List (List Text)) :=
  if d.isFolder root then
    (d.scriptsBelow extension d.depthBound 1 root).map fun found =>
      found.mergeSort fun a b => !decide (b < a)
  else .ok []

/-- The path that names lead to from a folder. -/
def pathBelow (root : Path) (names : List Text) : Path :=
  names.foldl (fun p n => p.join ⟨n⟩) root

/-- Reads scripts in order, up to the first that fails. -/
def readScripts (d : Disk) : List Path → Except ReadError (List Script)
  | [] => .ok []
  | p :: ps =>
    match d.fileSystem.read p with
    | .error e => .error e
    | .ok text =>
      match d.readScripts ps with
      | .error e => .error e
      | .ok ss => .ok (⟨p, text⟩ :: ss)

end Disk

/-- The scripts of the project below `root`. -/
def loadScripts (d : Disk) (c : Config) (root : Path) : Except Failure (List Script) :=
  match c.validate with
  | .error e => .error (.config e)
  | .ok () =>
    match d.scripts c.extension root with
    | .error cause => .error (.host cause)
    | .ok found =>
      match d.readScripts (found.map (Disk.pathBelow root)) with
      | .error e => .error (.files e)
      | .ok ss => .ok ss

namespace Resolver

/-- The resolver of a configuration that can work. -/
def ofConfig (c : Config) (fs : FileSystem) : Except ConfigError Resolver :=
  match c.validate with
  | .error e => .error e
  | .ok () => .ok ⟨c.dialect, fs⟩

/-- A configuration that can work has a resolver for every file system. -/
theorem ofConfig_eq {c : Config} (hc : c.IsValid) (fs : FileSystem) :
    ofConfig c fs = .ok ⟨c.dialect, fs⟩ := by
  rw [ofConfig, Config.validate_eq_ok_iff.2 hc]

end Resolver

end ScriptLexer
