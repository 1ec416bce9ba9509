import ScriptLexer.Files.Disk.Basic

/-!
# The content of files on a disk

Files are read as UTF-8, and one byte-order mark is dropped from the start of the text.
`Disk.fileSystem` tells a path where nothing exists from one that exists and cannot be read.
-/

namespace ScriptLexer.Disk

def readBytes (d : Disk) (p : Path) : Except DiskError (List UInt8) :=
  match d.find p with
  | .error e => .error e
  | .ok (.file bytes) => .ok bytes
  | .ok _ => .error .isFolder

/-- The text without a byte-order mark at its start. -/
def withoutMark : Text → Text
  | '\ufeff' :: t => t
  | t => t

def readText (d : Disk) (p : Path) : Except DiskError Text :=
  match d.readBytes p with
  | .error e => .error e
  | .ok bytes =>
    match Utf8.decode? bytes with
    | some t => .ok (withoutMark t)
    | none => .error .notUtf8

def fileSystem (d : Disk) : FileSystem where
  isFile := d.isFile
  read p :=
    match d.readText p with
    | .ok t => .ok t
    | .error .noEntry => .error (.notFound p)
    | .error e => .error (.failed p e.message)

end ScriptLexer.Disk
