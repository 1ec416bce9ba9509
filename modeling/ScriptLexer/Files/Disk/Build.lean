import ScriptLexer.Files.Disk.Basic

/-!
# Building a disk

`Disk.ofList` puts nodes at paths, one after the other. The folders that lead to a node are made
when they are missing, and links on the way are followed.

Bytes go to the file that the whole path leads to: where a link stands, they are written to its
target, which need not exist yet. A folder or a link is never put through a link at the end of the
path.

`node?_set` is the law of a single write.
-/

namespace ScriptLexer.Disk

/-- Puts a node at a location, in place of the one that is there. -/
def set (d : Disk) (l : Location) (n : Node) : Disk :=
  if (d.node? l).isSome then { d with nodes := d.nodes.map fun e => if e.1 = l then (l, n) else e }
  else { d with nodes := d.nodes ++ [(l, n)] }

/-- Puts a node where a piece leads to from a location. A folder may be there already, and a file
gets new bytes; nothing else is replaced. -/
def place (d : Disk) (l : Location) (piece : Text) (n : Node) : Except DiskError Disk :=
  match d.walk linkLimit l [piece] with
  | .error e => .error e
  | .ok l' =>
    match d.node? l', n with
    | none, .file _ => .ok (d.set l' n)
    | none, _ => if l' = l ++ [piece] then .ok (d.set l' n) else .error .taken
    | some .folder, .folder => .ok d
    | some .folder, .file _ => .error .isFolder
    | some (.file _), .file _ => .ok (d.set l' n)
    | some _, _ => .error .taken

/-- Makes the folders that the pieces lead to from a location, one inside the other, and answers
where the last of them is. -/
def makeFolders (d : Disk) (l : Location) : List Text → Except DiskError (Disk × Location)
  | [] => .ok (d, l)
  | piece :: rest =>
    match d.place l piece .folder with
    | .error e => .error e
    | .ok d' =>
      match d'.walk linkLimit l [piece] with
      | .error e => .error e
      | .ok l' => d'.makeFolders l' rest

/-- Puts a node at a path and makes the folders that lead to it. -/
def put (d : Disk) (p : Path) (n : Node) : Except DiskError Disk :=
  let pieces := Path.pieces p.text
  match d.makeFolders (startOf p.text d.working) pieces.dropLast with
  | .error e => .error e
  | .ok (d', l) => d'.place l (pieces.getLastD []) n

/-- A disk that holds only its working folder. -/
def empty (working : Location) : Disk where
  nodes := (List.range working.length).map fun n => (working.take (n + 1), .folder)
  working := working

/-- Puts nodes at paths in order. A node that cannot be put at its path is left out. -/
def putAll (d : Disk) (entries : List (Path × Node)) : Disk :=
  entries.foldl (fun d e => (d.put e.1 e.2).toOption.getD d) d

def ofList (working : Location) (entries : List (Path × Node)) : Disk :=
  (empty working).putAll entries

/-! ## The law of a write -/

theorem lookup_map_replace (l k : Location) (n : Node) (nodes : List (Location × Node)) :
    (nodes.map fun e => if e.1 = l then (l, n) else e).lookup k =
      if k = l then (nodes.lookup k).map fun _ => n else nodes.lookup k := by
  induction nodes with
  | nil => simp
  | cons e nodes ih =>
    obtain ⟨i, m⟩ := e
    rw [List.map_cons]
    by_cases hi : i = l
    · subst hi
      rw [if_pos rfl, List.lookup_cons, List.lookup_cons, ih]
      by_cases hk : k = i
      · simp [hk]
      · simp [hk, show (k == i) = false by simpa using hk]
    · rw [if_neg hi, List.lookup_cons, List.lookup_cons, ih]
      by_cases hk : k = i
      · subst hk
        simp [hi]
      · simp [show (k == i) = false by simpa using hk]

/-- **A write is seen at its own location and nowhere else.** -/
theorem node?_set {l : Location} (h : l ≠ []) (d : Disk) (n : Node) (k : Location) :
    (d.set l n).node? k = if k = l then some n else d.node? k := by
  unfold set
  by_cases hs : (d.node? l).isSome = true
  · obtain ⟨m, hm⟩ := Option.isSome_iff_exists.1 hs
    rw [if_pos hs]
    by_cases hk : k = l <;> simp_all [node?, lookup_map_replace]
  · rw [if_neg hs]
    have hn : d.nodes.lookup l = none := by
      rw [node?, if_neg h] at hs
      exact Option.not_isSome_iff_eq_none.1 hs
    by_cases hk : k = l
    · subst hk
      simp [node?, h, List.lookup_append, hn]
    · have hkl : (k == l) = false := by simpa using hk
      simp [node?, hk, hkl, List.lookup_append, List.lookup_cons]

end ScriptLexer.Disk
