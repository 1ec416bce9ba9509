import ScriptLexer.Path.Basic

/-!
# Access to files

A `FileSystem` answers two questions: whether a path is a file, and what text it holds. It is a
plain value, so that a run can be repeated against another one.

`Traced` is a value together with the accesses made to obtain it, in order. `FileSystem.probe` and
`FileSystem.fetch` ask the two questions and record that they did; `accesses_bind` says that a
sequence of steps makes the accesses of the first step, then those of the second.
-/

namespace ScriptLexer

/-- Why a file has no text. -/
inductive ReadError where
  /-- Nothing exists at the path. -/
  | notFound (path : Path)
  /-- Something exists, and reading it failed. -/
  | failed (path : Path) (cause : Text)
  deriving DecidableEq, Repr

namespace ReadError

/-- What the user is told. -/
def message : ReadError → Text
  | notFound p => "Path not found: ".toList ++ p.text
  | failed p cause => "IO error on ".toList ++ p.text ++ ": ".toList ++ cause

end ReadError

/-- Read access to files. -/
structure FileSystem where
  /-- Whether the path is an existing file; folders are not files. -/
  isFile : Path → Bool
  /-- The whole text of a file. -/
  read : Path → Except ReadError Text

/-- One question put to a file system. -/
inductive Access where
  | isFile (path : Path)
  | read (path : Path)
  deriving DecidableEq, Repr

namespace Access

def text : Access → Text
  | isFile p => "is_file ".toList ++ p.text
  | read p => "read ".toList ++ p.text

end Access

/-! ## Recording accesses -/

/-- A value with the accesses made to obtain it. -/
structure Traced (α : Type) where
  value : α
  accesses : List Access

namespace Traced

variable {α β : Type}

instance : Monad Traced where
  pure a := ⟨a, []⟩
  bind x f := ⟨(f x.value).value, x.accesses ++ (f x.value).accesses⟩

@[simp] theorem value_pure (a : α) : (pure a : Traced α).value = a := rfl

@[simp] theorem accesses_pure (a : α) : (pure a : Traced α).accesses = [] := rfl

@[simp] theorem value_bind (x : Traced α) (f : α → Traced β) :
    (x >>= f).value = (f x.value).value := rfl

@[simp] theorem accesses_bind (x : Traced α) (f : α → Traced β) :
    (x >>= f).accesses = x.accesses ++ (f x.value).accesses := rfl

@[simp] theorem value_map (f : α → β) (x : Traced α) : (f <$> x).value = f x.value := rfl

@[simp] theorem accesses_map (f : α → β) (x : Traced α) : (f <$> x).accesses = x.accesses :=
  List.append_nil _

end Traced

namespace FileSystem

/-- Asks whether a path is a file. -/
def probe (fs : FileSystem) (p : Path) : Traced Bool := ⟨fs.isFile p, [.isFile p]⟩

def fetch (fs : FileSystem) (p : Path) : Traced (Except ReadError Text) := ⟨fs.read p, [.read p]⟩

end FileSystem

end ScriptLexer
