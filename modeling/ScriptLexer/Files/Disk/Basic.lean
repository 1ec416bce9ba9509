import ScriptLexer.Files.Access
import ScriptLexer.Text.Utf8

/-!
# Disks

A `Disk` is a finite tree of files, folders and symbolic links with a working folder. Its nodes
are listed with their locations, the names that lead to them from the root; the order of the list
is the order in which folders list their entries.

A path is walked piece by piece (`walk`). Every piece needs a folder to be looked up in, also an
empty piece, so a separator after a file is an error. A link is replaced by its target, seen from
the folder that holds the link; at most `linkLimit` links are followed on one walk. The last piece
may name nothing: the walk then ends where that name would be, and `find` refuses.

A name longer than `nameLimit` bytes exists nowhere. Where the host has a limit for paths, a longer
one is refused before it is walked, whatever it would lead to; the targets of links do not count.

The listing of a folder can break off (`break?`): at its first entry, where the host does not let
the folder be read, or later; or because too many folders are being listed already. What is in such
a folder can still be looked up.
-/

namespace ScriptLexer

/-- What a location of a disk holds. -/
inductive Node where
  | file (bytes : List UInt8)
  | folder
  | link (target : Text)
  deriving DecidableEq, Repr

/-- The names that lead from the root to a node. -/
abbrev Location := List Text

/-- Why a disk refuses a path or the content of a file. -/
inductive DiskError where
  | noEntry
  | notFolder
  | isFolder
  | taken
  | tooLong
  | tooManyLinks
  | tooManyOpen
  | nulInPath
  | notUtf8
  deriving DecidableEq, Repr

namespace DiskError

def message : DiskError → Text
  | noEntry => "No such file or directory (os error 2)".toList
  | notFolder => "Not a directory (os error 20)".toList
  | isFolder => "Is a directory (os error 21)".toList
  | taken => "File exists (os error 17)".toList
  | tooLong => "File name too long (os error 36)".toList
  | tooManyLinks => "Too many levels of symbolic links (os error 40)".toList
  | tooManyOpen => "Too many open files (os error 24)".toList
  | nulInPath => "file name contained an unexpected NUL byte".toList
  | notUtf8 => "stream did not contain valid UTF-8".toList

end DiskError

/-- How the listing of a folder ends early: after so many entries, with what the host says. -/
structure Break where
  entries : Nat
  cause : Text
  deriving DecidableEq, Repr

/-- A finite tree of files with a working folder. -/
structure Disk where
  nodes : List (Location × Node)
  working : Location
  /-- The most bytes in a path, on hosts that have such a limit. -/
  pathLimit : Option Nat := some 4095
  /-- The folders that cannot be listed to their end. -/
  breaks : List (Location × Break) := []
  /-- The most folders that can be listed at once, on hosts that have such a limit. -/
  openLimit : Option Nat := none
  deriving DecidableEq, Repr

namespace Disk

/-- The most links that one walk follows. -/
def linkLimit : Nat := 40

/-- The most bytes in a name. -/
def nameLimit : Nat := 255

/-- The node at a location. The root is a folder. -/
def node? (d : Disk) (l : Location) : Option Node :=
  if l = [] then some .folder else d.nodes.lookup l

/-- Where a path that starts like `t` starts from, when relative paths start from `l`. -/
def startOf (t : Text) (l : Location) : Location := if t.head? = some '/' then [] else l

/-! ## Walking -/

/-- Walks the pieces from a location; only the last may name nothing. `follow` continues from the
folder of a link, with its target and the pieces that are left. -/
def walkWith (d : Disk) (follow : Location → Text → List Text → Except DiskError Location) :
    Location → List Text → Except DiskError Location
  | l, [] => .ok l
  | l, piece :: rest =>
    if d.node? l ≠ some .folder then .error .notFolder
    else
      match Path.component? piece with
      | some .up => walkWith d follow l.dropLast rest
      | some (.name n) =>
        if nameLimit < Utf8.size n then .error .tooLong
        else
          match d.node? (l ++ [n]) with
          | none => if rest = [] then .ok (l ++ [n]) else .error .noEntry
          | some (.link target) => follow l target rest
          | some _ => walkWith d follow (l ++ [n]) rest
      | _ => walkWith d follow l rest

/-- Walks the pieces from a location, following the given number of links at most. -/
def walk (d : Disk) : Nat → Location → List Text → Except DiskError Location
  | 0 => walkWith d fun _ _ _ => .error .tooManyLinks
  | links + 1 => walkWith d fun l target rest =>
      walk d links (startOf target l) (Path.pieces target ++ rest)

/-- Whether the host takes a path of this length. -/
def admits (d : Disk) (p : Path) : Bool := d.pathLimit.all (Utf8.size p.text ≤ ·)

/-- The location that a path leads to, where nothing needs to be. -/
def locate (d : Disk) (p : Path) : Except DiskError Location :=
  if '\x00' ∈ p.text then .error .nulInPath
  else if !d.admits p then .error .tooLong
  else if p.text = [] then .error .noEntry
  else d.walk linkLimit (startOf p.text d.working) (Path.pieces p.text)

/-- The node that a path leads to. -/
def find (d : Disk) (p : Path) : Except DiskError Node :=
  match d.locate p with
  | .error e => .error e
  | .ok l =>
    match d.node? l with
    | some n => .ok n
    | none => .error .noEntry

def isFolder (d : Disk) (p : Path) : Bool := d.find p matches .ok .folder

def isFile (d : Disk) (p : Path) : Bool := d.find p matches .ok (.file _)

/-! ## Listing -/

/-- What a folder lists, and why it lists no more if that is not all. -/
structure Listing where
  names : List Text
  cause? : Option Text

/-- How the listing of the folder at a location ends early, when it is the last of so many. -/
def break? (d : Disk) (level : Nat) (l : Location) : Option Break :=
  if d.openLimit.all (level ≤ ·) then d.breaks.lookup l
  else some ⟨0, DiskError.tooManyOpen.message⟩

/-- The names in the folder at a location. -/
def namesIn (d : Disk) (l : Location) : List Text :=
  d.nodes.filterMap fun e => if e.1.dropLast = l then e.1.getLast? else none

/-- Lists a folder while so many folders are being listed, this one among them. -/
def list (d : Disk) (level : Nat) (p : Path) : Listing :=
  match d.locate p with
  | .error e => ⟨[], some e.message⟩
  | .ok l =>
    match d.node? l with
    | none => ⟨[], some DiskError.noEntry.message⟩
    | some .folder =>
      match d.break? level l with
      | none => ⟨d.namesIn l, none⟩
      | some b => ⟨(d.namesIn l).take b.entries, some b.cause⟩
    | some _ => ⟨[], some DiskError.notFolder.message⟩

end Disk

end ScriptLexer
