import ScriptLexer.Files.Access

/-!
# Files in memory

`MemoryFiles` maps what paths address, their components, to texts. Inserting at a path that
addresses an existing entry replaces the entry, so the number of entries is the number of
different component lists inserted.

`lookup_insert` is the law of the map.
-/

namespace ScriptLexer

/-- Texts by the components of their paths, each list of components at most once. -/
structure MemoryFiles where
  entries : List (List Component × Text)
  deriving DecidableEq, Repr

namespace MemoryFiles

def empty : MemoryFiles := ⟨[]⟩

/-- The text at the given components. -/
def lookup (m : MemoryFiles) (key : List Component) : Option Text := m.entries.lookup key

/-- Puts a text at a path, in place of the one that is there. -/
def insert (m : MemoryFiles) (p : Path) (text : Text) : MemoryFiles :=
  ⟨(p.components, text) :: m.entries.filter fun e => e.1 != p.components⟩

def insertAll (m : MemoryFiles) (files : List (Path × Text)) : MemoryFiles :=
  files.foldl (fun m f => m.insert f.1 f.2) m

/-- The files of a list; of two that address the same path the later one stays. -/
def ofList (files : List (Path × Text)) : MemoryFiles := empty.insertAll files

def size (m : MemoryFiles) : Nat := m.entries.length

def isEmpty (m : MemoryFiles) : Bool := m.entries.isEmpty

/-- The entries as a file system. Texts are kept as inserted. -/
def fileSystem (m : MemoryFiles) : FileSystem where
  isFile p := (m.lookup p.components).isSome
  read p :=
    match m.lookup p.components with
    | some text => .ok text
    | none => .error (.notFound p)

/-! ## The law of the map -/

@[simp] theorem lookup_empty (key : List Component) : empty.lookup key = none := rfl

theorem lookup_filter_ne {α β : Type} [BEq α] [LawfulBEq α] {k j : α} (h : (j == k) = false)
    (es : List (α × β)) : (es.filter fun e => e.1 != k).lookup j = es.lookup j := by
  induction es with
  | nil => rfl
  | cons e es ih =>
    obtain ⟨i, v⟩ := e
    by_cases hi : i = k
    · subst hi
      simp [List.lookup_cons, h, ih]
    · have : (i != k) = true := by simpa using hi
      simp only [List.filter_cons, this, if_true, List.lookup_cons, ih]

/-- **An insertion is seen at its own components and nowhere else.** -/
theorem lookup_insert (m : MemoryFiles) (p : Path) (text : Text) (key : List Component) :
    (m.insert p text).lookup key = if key = p.components then some text else m.lookup key := by
  unfold insert lookup
  by_cases h : key = p.components
  · simp [h]
  · have hk : (key == p.components) = false := by simpa using h
    simp only [List.lookup_cons, hk, h, if_false]
    exact lookup_filter_ne hk _

end MemoryFiles

end ScriptLexer
