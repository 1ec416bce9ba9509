import Mathlib.Data.Finset.Card
import ScriptLexer.Files.Memory

/-!
# Files in memory after any insertions

What one insertion changes is `MemoryFiles.lookup_insert`. By induction, after a list of insertions a
lookup finds the last one at its components (`lookup_insertAll`), so a path is a file if and only if
something was inserted where it leads (`isFile_ofList_iff`), and reading it gives the text that was
inserted there last (`read_ofList_eq_ok_iff`).

**The number of files.** No two entries have the same components (`nodup_keys_insert`), so there are as
many entries as there are different components among the insertions (`size_ofList`).

**The order of insertions** matters only among paths with the same components: two neighbouring
insertions at different ones can be swapped, whatever comes before and after them
(`lookup_ofList_swap`).

Main result: `ofList_lastWriteWins`.
-/

namespace ScriptLexer.MemoryFiles

/-- **Of the files at the same components the last one is kept.** -/
theorem lookup_insertAll (m : MemoryFiles) (files : List (Path × Text)) (key : List Component) :
    (m.insertAll files).lookup key =
      ((files.reverse.find? fun f => f.1.components == key).map Prod.snd).or (m.lookup key) := by
  induction files generalizing m with
  | nil => rfl
  | cons f files ih =>
    have hstep : m.insertAll (f :: files) = (m.insert f.1 f.2).insertAll files := rfl
    rw [hstep, ih, List.reverse_cons, List.find?_append]
    cases files.reverse.find? fun f => f.1.components == key with
    | some g => rfl
    | none =>
      rw [lookup_insert]
      by_cases hkey : key = f.1.components
      · simp [hkey]
      · simp [hkey, Ne.symm hkey]

theorem lookup_ofList (files : List (Path × Text)) (key : List Component) :
    (ofList files).lookup key =
      (files.reverse.find? fun f => f.1.components == key).map Prod.snd := by
  rw [ofList, lookup_insertAll, lookup_empty, Option.or_none]

/-- **The files are what was inserted**, by what the paths address. -/
theorem isFile_ofList_iff {files : List (Path × Text)} {p : Path} :
    (ofList files).fileSystem.isFile p = true ↔ ∃ f ∈ files, f.1.sameAs p = true := by
  show ((ofList files).lookup p.components).isSome = true ↔ _
  rw [lookup_ofList, Option.isSome_map, List.find?_isSome]
  simp [Path.sameAs]

/-! ## Reading -/

variable {m : MemoryFiles} {files : List (Path × Text)} {p q : Path} {s t text : Text}

theorem read_eq_ok_iff_lookup : m.fileSystem.read p = .ok text ↔ m.lookup p.components = some text := by
  cases h : m.lookup p.components <;> simp [fileSystem, h]

theorem isFile_iff_exists_read :
    m.fileSystem.isFile p = true ↔ ∃ text, m.fileSystem.read p = .ok text := by
  simp only [read_eq_ok_iff_lookup]
  exact Option.isSome_iff_exists

theorem read_eq_error_iff {e : ReadError} :
    m.fileSystem.read p = .error e ↔ e = .notFound p ∧ m.fileSystem.isFile p = false := by
  cases h : m.lookup p.components <;> simp [fileSystem, h, eq_comm]

/-- **What was inserted last is read.** -/
theorem read_ofList_eq_ok_iff :
    (ofList files).fileSystem.read p = .ok text ↔ ∃ before q after,
      files = before ++ (q, text) :: after ∧ q.sameAs p = true ∧
        ∀ f ∈ after, f.1.sameAs p = false := by
  rw [read_eq_ok_iff_lookup, lookup_ofList, Option.map_eq_some_iff]
  simp only [List.find?_eq_some_iff_append]
  constructor
  · rintro ⟨⟨q, _⟩, ⟨hq, after, before, hfiles, hafter⟩, rfl⟩
    refine ⟨before.reverse, q, after.reverse, ?_, hq, ?_⟩
    · simpa using congrArg List.reverse hfiles
    · simpa [Path.sameAs] using hafter
  · rintro ⟨before, q, after, rfl, hq, hafter⟩
    refine ⟨(q, text), ⟨hq, after.reverse, before.reverse, by simp, ?_⟩, rfl⟩
    simpa [Path.sameAs] using hafter

/-! ## Counting -/

def keys (m : MemoryFiles) : List (List Component) := m.entries.map Prod.fst

theorem keys_insert : (m.insert p text).keys = p.components :: m.keys.filter (· != p.components) := by
  simp [keys, insert, List.filter_map, Function.comp_def]

theorem nodup_keys_insert (h : m.keys.Nodup) : (m.insert p text).keys.Nodup := by
  rw [keys_insert, List.nodup_cons]
  exact ⟨by simp, h.filter _⟩

theorem nodup_keys_insertAll (h : m.keys.Nodup) : (m.insertAll files).keys.Nodup := by
  induction files generalizing m with
  | nil => exact h
  | cons f files ih => exact ih (nodup_keys_insert h)

theorem mem_keys_insertAll {key : List Component} :
    key ∈ (m.insertAll files).keys ↔ key ∈ m.keys ∨ ∃ f ∈ files, f.1.components = key := by
  induction files generalizing m with
  | nil => simp [insertAll]
  | cons f files ih =>
    have hstep : m.insertAll (f :: files) = (m.insert f.1 f.2).insertAll files := rfl
    rw [hstep, ih, keys_insert]
    by_cases hkey : key = f.1.components
    · simp [hkey]
    · simp [hkey, Ne.symm hkey]

/-- **There are as many files as different components among the insertions.** -/
theorem size_ofList : (ofList files).size = (files.map fun f => f.1.components).toFinset.card := by
  have hkeys : (ofList files).keys.toFinset = (files.map fun f => f.1.components).toFinset := by
    ext key
    rw [List.mem_toFinset, ofList, mem_keys_insertAll]
    simp [keys, empty]
  have hnodup : (ofList files).keys.Nodup := nodup_keys_insertAll (m := empty) List.nodup_nil
  rw [← hkeys, List.toFinset_card_of_nodup hnodup]
  exact (List.length_map _).symm

theorem isEmpty_iff_size : m.isEmpty = true ↔ m.size = 0 := by
  rw [isEmpty, List.isEmpty_iff, size, List.length_eq_zero_iff]

theorem isEmpty_ofList_iff : (ofList files).isEmpty = true ↔ files = [] := by
  rw [isEmpty_iff_size, size_ofList, Finset.card_eq_zero, List.toFinset_eq_empty_iff,
    List.map_eq_nil_iff]

/-! ## The order of insertions -/

theorem insertAll_append (before after : List (Path × Text)) :
    m.insertAll (before ++ after) = (m.insertAll before).insertAll after :=
  List.foldl_append

/-- **Insertions at different components commute.** -/
theorem lookup_insert_comm (h : p.components ≠ q.components) (key : List Component) :
    ((m.insert p s).insert q t).lookup key = ((m.insert q t).insert p s).lookup key := by
  simp only [lookup_insert]
  by_cases hp : key = p.components
  · have hq : key ≠ q.components := hp ▸ h
    rw [if_neg hq, if_pos hp, if_pos hp]
  · rw [if_neg hp, if_neg hp]

theorem lookup_ofList_swap (h : p.components ≠ q.components) (before after : List (Path × Text))
    (key : List Component) :
    (ofList (before ++ (q, t) :: (p, s) :: after)).lookup key =
      (ofList (before ++ (p, s) :: (q, t) :: after)).lookup key := by
  have hstep (a b : Path × Text) : ofList (before ++ a :: b :: after) =
      (((ofList before).insert a.1 a.2).insert b.1 b.2).insertAll after :=
    insertAll_append before _
  rw [hstep, hstep, lookup_insertAll, lookup_insertAll, lookup_insert_comm h]

theorem fileSystem_congr {m' : MemoryFiles} (h : ∀ key, m'.lookup key = m.lookup key) :
    m'.fileSystem = m.fileSystem := by
  simp only [fileSystem, h]

/-- **Files in memory are a map from components to texts in which the last insertion wins.** After any
insertions a path is a file if and only if something was inserted at its components; reading it gives
the text of the last insertion there, and without one fails as not found; exactly the files can be
read. There are as many files as different components among the insertions, and none only before the
first. Two neighbouring insertions at different components can be swapped: nothing that can be asked
tells the two orders apart. -/
theorem ofList_lastWriteWins (files : List (Path × Text)) :
    let m := ofList files
    (∀ p text, m.insert p text = ofList (files ++ [(p, text)])) ∧
    (∀ p, m.fileSystem.isFile p = true ↔ ∃ f ∈ files, f.1.sameAs p = true) ∧
    (∀ p text, m.fileSystem.read p = .ok text ↔ ∃ before q after,
      files = before ++ (q, text) :: after ∧ q.sameAs p = true ∧
        ∀ f ∈ after, f.1.sameAs p = false) ∧
    (∀ p e, m.fileSystem.read p = .error e ↔
      e = .notFound p ∧ ∀ f ∈ files, f.1.sameAs p = false) ∧
    (∀ p, m.fileSystem.isFile p = true ↔ ∃ text, m.fileSystem.read p = .ok text) ∧
    m.size = (files.map fun f => f.1.components).toFinset.card ∧
    (m.isEmpty = true ↔ files = []) ∧
    (∀ before p s q t after, files = before ++ (p, s) :: (q, t) :: after → p.sameAs q = false →
      let m' := ofList (before ++ (q, t) :: (p, s) :: after)
      m'.fileSystem = m.fileSystem ∧ m'.size = m.size ∧ m'.isEmpty = m.isEmpty) := by
  intro m
  refine ⟨fun p text => (insertAll_append files [(p, text)]).symm, fun p => isFile_ofList_iff,
    fun p text => read_ofList_eq_ok_iff, fun p e => ?_, fun p => isFile_iff_exists_read,
    size_ofList, isEmpty_ofList_iff, ?_⟩
  · rw [read_eq_error_iff, ← Bool.not_eq_true, isFile_ofList_iff]
    simp
  · intro before p s q t after hfiles hne m'
    have hcomponents : p.components ≠ q.components := by simpa [Path.sameAs] using hne
    have hsize : m'.size = m.size := by
      have hperm : (before ++ (q, t) :: (p, s) :: after).Perm files :=
        hfiles ▸ (List.Perm.swap (p, s) (q, t) after).append_left before
      rw [size_ofList, size_ofList, List.toFinset_eq_of_perm _ _ (hperm.map _)]
    refine ⟨fileSystem_congr fun key => ?_, hsize, ?_⟩
    · rw [lookup_ofList_swap hcomponents before after key, ← hfiles]
    · rw [Bool.eq_iff_iff, isEmpty_iff_size, isEmpty_iff_size, hsize]

/-- A second spelling overwrites a file; a leading `.` makes another one, which may be inserted first. -/
theorem ofList_lastWriteWins_respelled :
    let p : Path := ⟨"a/b".toList⟩
    let q : Path := ⟨"a//b/.".toList⟩
    let r : Path := ⟨"./a/b".toList⟩
    let m := ofList [(p, ['x']), (r, ['y']), (q, ['z'])]
    let m' := ofList [(r, ['y']), (p, ['x']), (q, ['z'])]
    p.sameAs r = false ∧ m.fileSystem.read p = .ok ['z'] ∧ m'.fileSystem = m.fileSystem ∧
      m'.size = 2 := by
  intro p q r m m'
  obtain ⟨-, -, hread, -, -, -, -, hswap⟩ :=
    ofList_lastWriteWins [(p, ['x']), (r, ['y']), (q, ['z'])]
  have hne : p.sameAs r = false := by decide
  obtain ⟨hsystem, hsize, -⟩ := hswap [] p ['x'] r ['y'] [(q, ['z'])] rfl hne
  have hlast : m.fileSystem.read p = .ok ['z'] :=
    (hread p ['z']).2 ⟨[(p, ['x']), (r, ['y'])], q, [], rfl, by decide, by simp⟩
  exact ⟨hne, hlast, hsystem, hsize.trans (by decide)⟩

end ScriptLexer.MemoryFiles
