import ScriptLexer.Project
import ScriptLexer.Proofs.Disk.Locate
import ScriptLexer.Proofs.Files.Memory
import ScriptLexer.Proofs.Reference.Variants
import ScriptLexer.Proofs.Tokens.Simulation

/-!
# The same files in memory and on a disk

Files in memory are found by the components of a path, files on a disk by walking the tree. For
paths that are plain names both come to the same, on a host without a limit for the length of
paths.

**The files** (`Disk.Holds`). The disk has each file at its path below the working folder, in
UTF-8, and nothing else there but folders. A byte-order mark would be kept in memory and dropped
on the disk, so no text starts with one.

**One path** (`Disk.Holds.pathsMatch`). A file of the list is a file in both, with the same text.
Any other path is a file in neither: on the disk it may lead to a folder, go through a file, or
have a name that is too long to exist.

**A run** (`tokenize_eq_of_holds`). The candidates of a plain reference in a plain script are such
paths, so each lookup is answered alike, and with it the whole run.
-/

namespace ScriptLexer

/-! ## The same files on a disk -/

/-- Exactly these files are below the working folder, and no links. -/
structure Disk.Holds (d : Disk) (files : List (Path × Text)) : Prop where
  plain : ∀ f ∈ files, f.1.IsPlain
  unmarked : ∀ f ∈ files, f.2.head? ≠ some '\ufeff'
  file : ∀ f ∈ files,
    d.node? (d.working ++ Path.pieces f.1.text) = some (.file (Utf8.encode f.2))
  only : ∀ e ∈ d.nodes, d.working <+: e.1 →
    e.2 = .folder ∨ ∃ f ∈ files, e.1 = d.working ++ Path.pieces f.1.text

instance (d : Disk) (files : List (Path × Text)) : Decidable (d.Holds files) :=
  decidable_of_iff ((∀ f ∈ files, f.1.IsPlain) ∧ (∀ f ∈ files, f.2.head? ≠ some '\ufeff') ∧
      (∀ f ∈ files,
        d.node? (d.working ++ Path.pieces f.1.text) = some (.file (Utf8.encode f.2))) ∧
      ∀ e ∈ d.nodes, d.working <+: e.1 →
        e.2 = .folder ∨ ∃ f ∈ files, e.1 = d.working ++ Path.pieces f.1.text)
    ⟨fun ⟨h₁, h₂, h₃, h₄⟩ => ⟨h₁, h₂, h₃, h₄⟩, fun ⟨h₁, h₂, h₃, h₄⟩ => ⟨h₁, h₂, h₃, h₄⟩⟩

namespace Disk.Holds

variable {d : Disk} {files : List (Path × Text)} (hfiles : d.Holds files)

include hfiles

theorem exists_file {names : List Text} {x : Node} (hx : d.node? (d.working ++ names) = some x)
    (hfolder : x ≠ .folder) :
    ∃ f ∈ files, names = Path.pieces f.1.text ∧ x = .file (Utf8.encode f.2) := by
  have hne : d.working ++ names ≠ [] := by
    intro hnil
    rw [hnil, node?, if_pos rfl] at hx
    exact hfolder (Option.some.inj hx).symm
  have hmem := mem_nodes_of_node? hne hx
  rcases hfiles.only _ hmem (List.prefix_append _ _) with h | ⟨f, hf, heq⟩
  · exact absurd h hfolder
  · have hfile := hfiles.file f hf
    rw [← heq, hx] at hfile
    exact ⟨f, hf, List.append_cancel_left heq, Option.some.inj hfile⟩

theorem linkFree : d.LinkFree d.working := by
  intro names target hx
  obtain ⟨f, -, -, hfile⟩ := hfiles.exists_file hx (by simp)
  cases hfile

/-- **A plain path means the same file in memory and on the disk.** -/
theorem pathsMatch (hd : d.IsTree) (hlimit : d.pathLimit = none) {q : Path} {names : List Text}
    (hq : q.IsBelow [] names) :
    (MemoryFiles.ofList files).fileSystem.PathsMatch Eq d.fileSystem q q := by
  have htakes : d.Takes q := by
    refine ⟨by rw [admits, hlimit]; rfl, fun m i hm => ?_⟩
    obtain ⟨rfl, -⟩ := hd.leadTo_working.eq_of_leads hfiles.linkFree hq.components hq.names hm
    exact Nat.zero_le linkLimit
  have hfind (bytes : List UInt8) :
      d.find q = .ok (.file bytes) ↔ d.node? (d.working ++ names) = some (.file bytes) := by
    rw [hd.leadTo_working.find_eq_file_iff hd hfiles.linkFree hq.components hq.names hq.endsInName]
    exact and_iff_right htakes
  have hkey (f : Path × Text) (hf : f ∈ files) :
      f.1.components = q.components ↔ names = Path.pieces f.1.text := by
    rw [(hfiles.plain f hf).isBelow.components, hq.components, List.nil_append, List.nil_append,
      List.map_inj_right fun _ _ => Component.name.inj]
    exact eq_comm
  have hmemory := MemoryFiles.lookup_ofList files q.components
  cases hlast : files.reverse.find? fun f => f.1.components == q.components with
  | some f =>
    have hf : f ∈ files := List.mem_reverse.1 (List.mem_of_find?_eq_some hlast)
    have hnames : names = Path.pieces f.1.text :=
      (hkey f hf).1 (by simpa using List.find?_some hlast)
    have hdisk : d.find q = .ok (.file (Utf8.encode f.2)) := by
      rw [hfind, hnames]
      exact hfiles.file f hf
    rw [hlast] at hmemory
    have hfile : d.isFile q = true := isFile_eq_true_iff.2 ⟨_, hdisk⟩
    constructor
    · simp [MemoryFiles.fileSystem, hmemory, fileSystem, hfile]
    · intro _
      have hread : d.fileSystem.read q = .ok f.2 := by
        rw [read_eq_ok_iff]
        exact ⟨f.2, hdisk, (withoutMark_eq (hfiles.unmarked f hf)).symm⟩
      rw [FileSystem.answer, FileSystem.answer, hread]
      simpa [MemoryFiles.fileSystem, hmemory] using Answer.text f.2
  | none =>
    rw [hlast] at hmemory
    have hfile : d.isFile q = false := by
      rw [← Bool.not_eq_true, isFile_eq_true_iff]
      rintro ⟨bytes, hdisk⟩
      obtain ⟨f, hf, hnames, -⟩ := hfiles.exists_file ((hfind bytes).1 hdisk) (by simp)
      have hnone := List.find?_eq_none.1 hlast f (List.mem_reverse.2 hf)
      exact hnone (by simpa using (hkey f hf).2 hnames)
    constructor
    · simp [MemoryFiles.fileSystem, hmemory, fileSystem, hfile]
    · intro hisFile
      simp [MemoryFiles.fileSystem, hmemory] at hisFile

/-- **A plain path is looked up alike.** -/
theorem resolve_eq (hd : d.IsTree) (hlimit : d.pathLimit = none) {dialect : Text}
    (hdialect : '/' ∉ dialect) {p : Path} {names : List Text} (hnames : names ≠ [])
    (hp : p.IsBelow [] names) :
    Answer Eq ((⟨dialect, (MemoryFiles.ofList files).fileSystem⟩ : Resolver).resolve p).value
      ((⟨dialect, d.fileSystem⟩ : Resolver).resolve p).value := by
  have hmatch := candidates_of_isBelow hdialect hnames hp hp
  cases hcandidates : candidates dialect p with
  | error kind => exact Resolver.answer_of_refused hcandidates hcandidates rfl
  | ok ps =>
    rw [hcandidates] at hmatch
    cases hmatch with
    | candidates hps =>
      refine Resolver.answer_of_candidates (K := Eq) hcandidates hcandidates rfl ?_
      rw [List.forall₂_same] at hps ⊢
      intro q hq
      obtain ⟨names', hbelow, -⟩ := hps q hq
      exact hfiles.pathsMatch hd hlimit hbelow

end Disk.Holds

/-! ## Runs -/

theorem Path.IsPlain.isBelow_referencePath {s : Script} {body : Text} (hs : s.path.IsPlain)
    (hbody : (⟨body.map slashed⟩ : Path).IsPlain) :
    ∃ names, names ≠ [] ∧ (referencePath s.folder body).IsBelow [] names := by
  have hfolder : s.folder.components = [] ++ (pieces s.path.text).dropLast.map .name :=
    hs.isBelow.components_folder (pieces_ne_nil _)
  have hbelow := hbody.isBelow_join s.folder
  rw [hfolder] at hbelow
  refine ⟨_, ?_, hbelow.of_append fun n hn => hs n (List.dropLast_subset _ hn)⟩
  simp [pieces_ne_nil]

/-- **Tokenizing against files in memory and against a disk that holds the same files gives the same
outcome**, if the paths of the scripts and all references that are looked up are plain names. -/
theorem tokenize_eq_of_holds {c : Config} (hc : c.IsValid) {files : List (Path × Text)} {d : Disk}
    (hd : d.IsTree) (hlimit : d.pathLimit = none) (hfiles : d.Holds files) {ss : List Script}
    (hpaths : ∀ s ∈ ss, s.path.IsPlain)
    (hreferences : ∀ x ∈ (⟨c.dialect, (MemoryFiles.ofList files).fileSystem⟩ : Resolver).scanned ss,
      (⟨x.2.map slashed⟩ : Path).IsPlain) :
    ∃ r r', Resolver.ofConfig c (MemoryFiles.ofList files).fileSystem = .ok r ∧
      Resolver.ofConfig c d.fileSystem = .ok r' ∧
      (r.tokenize ss).value = (r'.tokenize ss).value := by
  refine ⟨_, _, Resolver.ofConfig_eq hc _, Resolver.ofConfig_eq hc _, ?_⟩
  apply Outcome.Matches.eq
  refine Resolver.tokenize_matches (S := Eq) (K := Eq) (fun _ => rfl) ?_ ?_
  · rw [List.forall₂_same]
    exact fun s _ => ⟨rfl, rfl⟩
  · rintro s _ body rfl hscanned
    obtain ⟨hs, -⟩ := Resolver.mem_of_mem_scanned hscanned
    obtain ⟨names, hnames, hbelow⟩ :=
      (hpaths s hs).isBelow_referencePath (hreferences (s, body) hscanned)
    exact hfiles.resolve_eq hd hlimit hc.slash_notMem hnames hbelow

/-- A variant in a folder, and a file that a reference uses as a folder. -/
theorem tokenize_eq_of_holds_variant :
    let files : List (Path × Text) :=
      [(⟨['q', '/', 'a', '.', 'D', '.', 's', 'q', 'l']⟩, ['x']), (⟨['n']⟩, ['y'])]
    let d : Disk :=
      { nodes :=
          [([['w']], .folder), ([['w'], ['q']], .folder),
            ([['w'], ['q'], ['a', '.', 'D', '.', 's', 'q', 'l']], .file [0x78]),
            ([['w'], ['n']], .file [0x79])]
        working := [['w']]
        pathLimit := none }
    let ss : List Script :=
      [⟨⟨['m']⟩, ['<', 'q', '\\', 'a', '.', 's', 'q', 'l', '>', '<', 'n', '/', 'k', '>']⟩]
    d.IsTree ∧ d.Holds files ∧
      ∃ r r', Resolver.ofConfig ⟨['D'], ['e']⟩ (MemoryFiles.ofList files).fileSystem = .ok r ∧
        Resolver.ofConfig ⟨['D'], ['e']⟩ d.fileSystem = .ok r' ∧
        (r.tokenize ss).value = (r'.tokenize ss).value := by
  intro files d ss
  have hd : d.IsTree := by decide +kernel
  have hfiles : d.Holds files := by decide +kernel
  have hc : (⟨['D'], ['e']⟩ : Config).IsValid := ⟨rfl, rfl, rfl⟩
  have hpaths : ∀ s ∈ ss, s.path.IsPlain := by decide +kernel
  exact ⟨hd, hfiles, tokenize_eq_of_holds hc hd rfl hfiles hpaths (by decide +kernel)⟩

end ScriptLexer
