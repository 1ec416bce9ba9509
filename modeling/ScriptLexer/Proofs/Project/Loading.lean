import ScriptLexer.Proofs.Disk.Build
import ScriptLexer.Proofs.Project.Root

/-!
# What a project loads

**Reading** (`Disk.readScripts_eq_ok_iff`, `Disk.readScripts_eq_error_iff`). All scripts can be
read, or the first that cannot be read is the error.

**Any order of entries** (`Disk.Agrees`). Two disks that differ in the order in which folders list
their entries have the same scripts (`Disk.scripts_eq_of_agrees`), and so the same is loaded. The
order shows in one place: which of several folders that cannot be listed is the error.

**Loading** (`loadScripts_loads`). Where the host takes the paths of the folders that matter, exactly
the scripts of the tree are loaded, or the error is that of a folder that cannot be listed or of the
first script that cannot be read. `loadScripts_hiddenFolder` is a folder with a script that the search
passes by, since its path is too long for the host.
-/

namespace ScriptLexer

namespace Disk

variable {d : Disk} {extension : Text} {root : Path} {names : List Text} {l : Location}

/-! ## Reading -/

/-- The path leads to a file in UTF-8. -/
def IsReadable (d : Disk) (p : Path) : Prop := ∃ t, d.HasText p t

theorem isReadable_iff {p : Path} : d.IsReadable p ↔ ∃ text, d.fileSystem.read p = .ok text := by
  constructor
  · rintro ⟨t, ht⟩
    exact ⟨_, read_eq_ok_iff.2 ⟨t, ht, rfl⟩⟩
  · rintro ⟨text, htext⟩
    obtain ⟨t, ht, -⟩ := read_eq_ok_iff.1 htext
    exact ⟨t, ht⟩

/-- **Reading succeeds if every script can be read.** -/
theorem readScripts_eq_ok_iff {ps : List Path} {ss : List Script} :
    d.readScripts ps = .ok ss ↔
      List.Forall₂ (fun p s => s.path = p ∧ d.fileSystem.read p = .ok s.text) ps ss := by
  induction ps generalizing ss with
  | nil =>
    rw [readScripts, List.forall₂_nil_left_iff]
    exact ⟨fun h => (Except.ok.inj h).symm, fun h => h ▸ rfl⟩
  | cons p ps ih =>
    rw [readScripts]
    constructor
    · intro h
      split at h
      · cases h
      next text htext =>
      split at h
      · cases h
      next rest hrest =>
      cases h
      exact .cons ⟨rfl, htext⟩ (ih.1 hrest)
    · intro h
      cases h with
      | @cons _ s _ ss hs hss =>
        obtain ⟨rfl, htext⟩ := hs
        rw [htext, ih.2 hss]

/-- **Reading fails as the first script that cannot be read.** -/
theorem readScripts_eq_error_iff {ps : List Path} {e : ReadError} :
    d.readScripts ps = .error e ↔
      ∃ before p after, ps = before ++ p :: after ∧ (∀ q ∈ before, d.IsReadable q) ∧
        d.fileSystem.read p = .error e := by
  induction ps with
  | nil =>
    rw [readScripts]
    constructor
    · intro h
      cases h
    · rintro ⟨before, p, after, hps, -⟩
      simp at hps
  | cons p ps ih =>
    rw [readScripts]
    constructor
    · intro h
      split at h
      · next hp =>
        cases h
        exact ⟨[], p, ps, rfl, List.forall_mem_nil _, hp⟩
      next text htext =>
      split at h
      · next hrest =>
        cases h
        obtain ⟨before, q, after, rfl, hbefore, hq⟩ := ih.1 hrest
        refine ⟨p :: before, q, after, rfl, ?_, hq⟩
        rintro r (_ | ⟨_, hr⟩)
        · exact isReadable_iff.2 ⟨text, htext⟩
        · exact hbefore r hr
      · cases h
    · rintro ⟨before, q, after, hps, hbefore, hq⟩
      rcases List.cons_eq_append_iff.1 hps with ⟨rfl, hafter⟩ | ⟨before, rfl, hrest⟩
      · cases hafter
        rw [hq]
      · obtain ⟨text, htext⟩ := isReadable_iff.1 (hbefore p List.mem_cons_self)
        have hfails : d.readScripts ps = .error e :=
          ih.2 ⟨before, q, after, hrest, fun r hr => hbefore r (List.mem_cons_of_mem p hr), hq⟩
        rw [htext, hfails]

/-! ## The order of entries -/

namespace Agrees

variable {d' : Disk}

theorem findsEntry {p : Path} {n : Text} (h : d'.Agrees d) (hn : d'.FindsEntry p n) :
    d.FindsEntry p n := by
  obtain ⟨htakes, m, hm, hx⟩ := hn
  exact ⟨h.takes htakes, m, h.leadsToFolder hm, (h.node _).symm ▸ hx⟩

theorem isSearched (h : d'.Agrees d) (hs : d'.IsSearched root names l) :
    d.IsSearched root names l :=
  ⟨fun front n back he => h.findsEntry (hs.entries front n back he), h.takes hs.takes,
    h.leadsToFolder hs.folder⟩

theorem isFound (h : d'.Agrees d) (hf : d'.IsFound extension root names) :
    d.IsFound extension root names := by
  refine ⟨hf.ne_nil, fun front n back he => h.findsEntry (hf.entries front n back he), ?_,
    hf.extension⟩
  have hfolder := hf.notFolder
  rwa [Disk.isFolder, h.find_eq] at hfolder

theorem isListable (h : d'.Agrees d) (hbreak : ∀ k l, d'.break? k l = d.break? k l)
    (hl : d'.IsListable root) : d.IsListable root := by
  intro names l hs
  rw [← hbreak]
  exact hl names l (h.symm.isSearched hs)

theorem readScripts_eq (h : d'.Agrees d) (ps : List Path) : d'.readScripts ps = d.readScripts ps := by
  have hread (p : Path) : d'.fileSystem.read p = d.fileSystem.read p := by
    simp only [fileSystem, readText, readBytes, h.find_eq]
  induction ps with
  | nil => rfl
  | cons p ps ih => rw [readScripts, readScripts, hread, ih]

end Agrees

/-- **The scripts of a project do not depend on the order of entries.** -/
theorem scripts_eq_of_agrees {d' : Disk} (hd : d.IsTree) (hd' : d'.IsTree) (h : d'.Agrees d)
    {found found' : List (List Text)} (hfound : d.scripts extension root = .ok found)
    (hfound' : d'.scripts extension root = .ok found') : found' = found := by
  apply eq_of_ascending (sorted_scripts hd' hfound') (sorted_scripts hd hfound)
  intro names
  rw [mem_scripts hd' hfound', mem_scripts hd hfound]
  exact ⟨h.isFound, h.symm.isFound⟩

/-- The disk with all folders listed to their ends. -/
def unbroken (d : Disk) : Disk := { d with breaks := [], openLimit := none }

theorem agrees_unbroken (d : Disk) : d.unbroken.Agrees d := ⟨fun _ => rfl, rfl, rfl⟩

theorem IsTree.unbroken (hd : d.IsTree) : d.unbroken.IsTree :=
  ⟨hd.distinct, hd.names, hd.parents, hd.working⟩

/-- **What is found can be listed in order**, whether or not the folders can. -/
theorem exists_found (hd : d.IsTree) (extension : Text) (root : Path) :
    ∃ found : List (List Text), (∀ names, names ∈ found ↔ d.IsFound extension root names) ∧
      found.Pairwise (· < ·) := by
  have hlistable : d.unbroken.IsListable root := fun _ _ _ => rfl
  obtain ⟨found, hfound⟩ := (exists_scripts_iff hd.unbroken extension root).2 hlistable
  refine ⟨found, fun names => ?_, sorted_scripts hd.unbroken hfound⟩
  rw [mem_scripts hd.unbroken hfound]
  exact ⟨d.agrees_unbroken.isFound, d.agrees_unbroken.symm.isFound⟩

end Disk

/-! ## Loading -/

/-- What there is to load below a root, and what comes of it. -/
structure Disk.Loads (d : Disk) (extension : Text) (root : Path) (collected : List (List Text))
    (result : Except Failure (List Script)) : Prop where
  /-- Exactly the scripts are collected. -/
  mem_iff : ∀ names, names ∈ collected ↔ d.IsCollected extension root names
  /-- They are in the order of their names, none of them twice. -/
  ascending : collected.Pairwise (· < ·)
  isOk_iff : (∃ ss, result = .ok ss) ↔ d.IsListable root ∧
    ∀ names, d.IsCollected extension root names → d.IsReadable (pathBelow root names)
  /-- Each script has its path, and the text of its file less a mark at the start. -/
  scripts : ∀ ss, result = .ok ss →
    List.Forall₂ (fun names s => s.path = pathBelow root names ∧
      ∃ t, d.HasText s.path t ∧ s.text = withoutMark t) collected ss
  /-- The error is that of a folder that cannot be listed, if there is one. -/
  listing : ¬d.IsListable root → ∃ names l b, d.IsSearched root names l ∧
    d.break? (names.length + 1) l = some b ∧ result = .error (.host b.cause)
  /-- Otherwise it is that of the first script that cannot be read. -/
  reading : d.IsListable root → ∀ e, result = .error e → ∃ before names after cause,
    collected = before ++ names :: after ∧
      (∀ names' ∈ before, d.IsReadable (pathBelow root names')) ∧
      ¬d.IsReadable (pathBelow root names) ∧
      d.fileSystem.read (pathBelow root names) = .error cause ∧ e = .files cause
  noFolder : (∀ l, ¬d.LeadsToFolder root l) → result = .ok []

variable {d : Disk} {c : Config} {root : Path}

/-- **Loading reads what is found, in order.** -/
theorem loadScripts_eq_ok_iff (hc : c.IsValid) {ss : List Script} :
    loadScripts d c root = .ok ss ↔ ∃ found, d.scripts c.extension root = .ok found ∧
      List.Forall₂ (fun names s => s.path = Disk.pathBelow root names ∧
        d.fileSystem.read (Disk.pathBelow root names) = .ok s.text) found ss := by
  rw [loadScripts, Config.validate_eq_ok_iff.2 hc]
  cases d.scripts c.extension root with
  | error cause => simp
  | ok found =>
    have hread : d.readScripts (found.map (Disk.pathBelow root)) = .ok ss ↔ _ :=
      Disk.readScripts_eq_ok_iff
    rw [List.forall₂_map_left_iff] at hread
    simp only [Except.ok.injEq, exists_eq_left', ← hread]
    cases d.readScripts (found.map (Disk.pathBelow root)) <;> simp

/-- **It fails as a folder that cannot be listed, or as the first script that cannot be read.** -/
theorem loadScripts_eq_error (hc : c.IsValid) {e : Failure}
    (h : loadScripts d c root = .error e) :
    (∃ cause, d.scripts c.extension root = .error cause ∧ e = .host cause) ∨
      ∃ before names after cause,
        d.scripts c.extension root = .ok (before ++ names :: after) ∧
          (∀ names' ∈ before, d.IsReadable (Disk.pathBelow root names')) ∧
          d.fileSystem.read (Disk.pathBelow root names) = .error cause ∧ e = .files cause := by
  rw [loadScripts, Config.validate_eq_ok_iff.2 hc] at h
  cases hfound : d.scripts c.extension root with
  | error cause =>
    rw [hfound] at h
    cases h
    exact .inl ⟨cause, rfl, rfl⟩
  | ok found =>
    rw [hfound] at h
    dsimp only at h
    split at h
    · next cause hread =>
      cases h
      obtain ⟨before, p, after, hps, hbefore, hp⟩ := Disk.readScripts_eq_error_iff.1 hread
      obtain ⟨before, rest, rfl, rfl, hrest⟩ := List.map_eq_append_iff.1 hps
      obtain ⟨names, after, rfl, rfl, rfl⟩ := List.map_eq_cons_iff.1 hrest
      refine .inr ⟨before, names, after, cause, rfl, ?_, hp, rfl⟩
      exact fun names' hnames' => hbefore _ (List.mem_map_of_mem hnames')
    · cases h

/-- **Loading succeeds if all folders can be listed and everything that is found can be read.** -/
theorem exists_loadScripts_eq_ok_iff (hc : c.IsValid) (hd : d.IsTree) :
    (∃ ss, loadScripts d c root = .ok ss) ↔ d.IsListable root ∧
      ∀ names, d.IsFound c.extension root names → d.IsReadable (Disk.pathBelow root names) := by
  constructor
  · rintro ⟨ss, hss⟩
    obtain ⟨found, hfound, hread⟩ := (loadScripts_eq_ok_iff hc).1 hss
    refine ⟨(Disk.exists_scripts_iff hd c.extension root).1 ⟨found, hfound⟩, fun names hnames => ?_⟩
    have hreadable : List.Forall₂
        (fun names (_ : Script) => d.IsReadable (Disk.pathBelow root names) ∧ True) found ss :=
      hread.imp fun _ s hs => ⟨Disk.isReadable_iff.2 ⟨s.text, hs.2⟩, trivial⟩
    exact ((List.forall₂_and_left _ _).1 hreadable).1 names ((Disk.mem_scripts hd hfound).2 hnames)
  · rintro ⟨hlistable, hreadable⟩
    cases hload : loadScripts d c root with
    | ok ss => exact ⟨ss, rfl⟩
    | error e =>
      rcases loadScripts_eq_error hc hload with
        ⟨cause, hscripts, -⟩ | ⟨before, names, after, cause, hscripts, -, hread, -⟩
      · obtain ⟨found, hfound⟩ := (Disk.exists_scripts_iff hd c.extension root).2 hlistable
        rw [hscripts] at hfound
        cases hfound
      · have hnames : d.IsFound c.extension root names :=
          (Disk.mem_scripts hd hscripts).1 (by simp)
        obtain ⟨text, htext⟩ := Disk.isReadable_iff.1 (hreadable names hnames)
        rw [hread] at htext
        cases htext

/-- **A folder that cannot be listed is the error**, whatever else there is. -/
theorem loadScripts_eq_host (hc : c.IsValid) (hd : d.IsTree) (h : ¬d.IsListable root) :
    ∃ names l b, d.IsSearched root names l ∧ d.break? (names.length + 1) l = some b ∧
      loadScripts d c root = .error (.host b.cause) := by
  cases hscripts : d.scripts c.extension root with
  | ok found => exact absurd ((Disk.exists_scripts_iff hd c.extension root).1 ⟨found, hscripts⟩) h
  | error cause =>
    obtain ⟨names, l, b, hsearched, hb, rfl⟩ := Disk.exists_break_of_scripts hscripts
    refine ⟨names, l, b, hsearched, hb, ?_⟩
    rw [loadScripts, Config.validate_eq_ok_iff.2 hc, hscripts]

/-- **Where all folders can be listed, the order of entries shows nowhere.** -/
theorem loadScripts_eq_of_perm (hd : d.IsTree) (hlistable : d.IsListable root)
    {nodes : List (Location × Node)} (hperm : nodes.Perm d.nodes) :
    loadScripts { d with nodes := nodes } c root = loadScripts d c root := by
  have hagrees := Disk.agrees_of_perm hd.distinct hperm
  have hd' : ({ d with nodes := nodes } : Disk).IsTree := hd.of_perm hperm
  have hlistable' : ({ d with nodes := nodes } : Disk).IsListable root :=
    hagrees.symm.isListable (fun _ _ => rfl) hlistable
  obtain ⟨found, hfound⟩ := (Disk.exists_scripts_iff hd c.extension root).2 hlistable
  obtain ⟨found', hfound'⟩ := (Disk.exists_scripts_iff hd' c.extension root).2 hlistable'
  obtain rfl := Disk.scripts_eq_of_agrees hd hd' hagrees hfound hfound'
  simp only [loadScripts, hfound, hfound', hagrees.readScripts_eq]

section

variable {collected : List (List Text)}

/-- **Where all folders can be listed, loading reads what is collected.** -/
theorem loads_of_isListable (hc : c.IsValid) (hd : d.IsTree)
    (hlimits : d.TakesFolders c.extension root) (hlistable : d.IsListable root)
    (hmem : ∀ names, names ∈ collected ↔ d.IsFound c.extension root names)
    (hascending : collected.Pairwise (· < ·)) :
    d.Loads c.extension root collected (loadScripts d c root) := by
  obtain ⟨found, hscripts⟩ := (Disk.exists_scripts_iff hd c.extension root).2 hlistable
  obtain rfl : found = collected := by
    apply Disk.eq_of_ascending (Disk.sorted_scripts hd hscripts) hascending
    exact fun names => (Disk.mem_scripts hd hscripts).trans (hmem names).symm
  refine ⟨fun names => (hmem names).trans (Disk.isFound_iff_isCollected hlimits), hascending, ?_, ?_,
    fun h => absurd hlistable h, ?_, ?_⟩
  · rw [exists_loadScripts_eq_ok_iff hc hd]
    simp only [Disk.isFound_iff_isCollected hlimits]
  · intro ss hss
    obtain ⟨found', hscripts', hread⟩ := (loadScripts_eq_ok_iff hc).1 hss
    obtain rfl := Except.ok.inj (hscripts.symm.trans hscripts')
    refine hread.imp ?_
    rintro names s ⟨hpath, hread⟩
    rw [hpath]
    exact ⟨rfl, Disk.read_eq_ok_iff.1 hread⟩
  · intro _ e he
    rcases loadScripts_eq_error hc he with
      ⟨cause, hscripts', -⟩ | ⟨before, names, after, cause, hscripts', hbefore, hread, hcause⟩
    · rw [hscripts] at hscripts'
      cases hscripts'
    · obtain rfl := Except.ok.inj (hscripts.symm.trans hscripts')
      refine ⟨before, names, after, cause, rfl, hbefore, ?_, hread, hcause⟩
      rw [Disk.isReadable_iff]
      rintro ⟨text, htext⟩
      rw [hread] at htext
      cases htext
  · intro hroot
    have hfolder : d.isFolder root = false := by
      rw [← Bool.not_eq_true, Disk.isFolder_eq_true_iff]
      rintro ⟨-, l, hl⟩
      exact hroot l hl
    rw [loadScripts_eq_ok_iff hc, Disk.scripts, hfolder]
    exact ⟨[], rfl, .nil⟩

theorem loads_of_break {extension : Text} {result : Except Failure (List Script)}
    (hmem : ∀ names, names ∈ collected ↔ d.IsCollected extension root names)
    (hascending : collected.Pairwise (· < ·)) {names : List Text} {l : Location} {b : Break}
    (hsearched : d.IsSearched root names l) (hb : d.break? (names.length + 1) l = some b)
    (hresult : result = .error (.host b.cause)) : d.Loads extension root collected result := by
  subst hresult
  have hnot : ¬d.IsListable root := by
    intro hlistable
    rw [hlistable names l hsearched] at hb
    cases hb
  refine ⟨hmem, hascending, by simp [hnot], ?_, fun _ => ⟨names, l, b, hsearched, hb, rfl⟩,
    fun h => absurd h hnot, ?_⟩
  · intro ss hss
    cases hss
  · intro hroot
    -- Without a root no folder is searched.
    obtain ⟨-, m, hm⟩ := Disk.isFolder_eq_true_iff.1 hsearched.isFolder_root
    exact absurd hm (hroot m)

/-- **Loading is complete and exact**, whatever the order in which folders list their entries, where
the host takes the paths of the folders that matter. -/
theorem loadScripts_loads (hc : c.IsValid) (hd : d.IsTree)
    (hlimits : d.TakesFolders c.extension root) :
    ∃ collected, ∀ nodes : List (Location × Node), nodes.Perm d.nodes →
      d.Loads c.extension root collected (loadScripts { d with nodes := nodes } c root) ∧
        (d.IsListable root →
          loadScripts { d with nodes := nodes } c root = loadScripts d c root) := by
  obtain ⟨collected, hmem, hascending⟩ := Disk.exists_found hd c.extension root
  refine ⟨collected, fun nodes hperm => ⟨?_, fun h => loadScripts_eq_of_perm hd h hperm⟩⟩
  by_cases hlistable : d.IsListable root
  · rw [loadScripts_eq_of_perm hd hlistable hperm]
    exact loads_of_isListable hc hd hlimits hlistable hmem hascending
  · have hagrees := Disk.agrees_of_perm hd.distinct hperm
    have hnot : ¬({ d with nodes := nodes } : Disk).IsListable root :=
      fun h => hlistable (hagrees.isListable (fun _ _ => rfl) h)
    obtain ⟨names, l, b, hsearched, hb, hload⟩ := loadScripts_eq_host hc (hd.of_perm hperm) hnot
    exact loads_of_break (fun names => (hmem names).trans (Disk.isFound_iff_isCollected hlimits))
      hascending (hagrees.isSearched hsearched) hb hload

end

/-- Scripts below a folder and below a link to it, and a file of another sort. -/
theorem loadScripts_loads_linkedFolder :
    let entries : List (Path × Node) :=
      [(⟨['l']⟩, .link ['a']), (⟨['n']⟩, .file [0x6e]),
        (⟨['a', '/', 'b', '.', 'e']⟩, .file [0xef, 0xbb, 0xbf, 0x62])]
    let d := Disk.ofList [] entries
    let c : Config := ⟨['D'], ['e']⟩
    let root : Path := ⟨['.']⟩
    d.IsTree ∧ d.TakesFolders c.extension root ∧ ∃ collected,
      ∀ nodes : List (Location × Node), nodes.Perm d.nodes →
        d.Loads c.extension root collected (loadScripts { d with nodes := nodes } c root) ∧
          (d.IsListable root →
            loadScripts { d with nodes := nodes } c root = loadScripts d c root) := by
  intro entries d c root
  have hpaths : ∀ e ∈ entries, '\x00' ∉ e.1.text := by decide
  have htargets : ∀ e ∈ entries, ∀ target, e.2 = .link target → '\x00' ∉ target := by
    simp [entries]
  have hd : d.IsTree := Disk.isTree_ofList (List.forall_mem_nil _) hpaths htargets
  have hc : c.IsValid := ⟨rfl, rfl, rfl⟩
  have hall : d.takesAll 3 root = true := by decide +kernel
  have hlimits : d.TakesFolders c.extension root := Disk.takesFolders_of_takesAll hall
  exact ⟨hd, hlimits, loadScripts_loads hc hd hlimits⟩

/-- A folder whose path is too long for the host is passed by with the script in it, though that
cannot be read; a folder that cannot be listed is an error, though all in it can be read; and of two
such folders the one that is listed first is the error. -/
theorem loadScripts_hiddenFolder :
    let d : Disk :=
      { nodes :=
          [([['p']], .folder), ([['p'], ['s', 's', 's', 's', 's']], .folder),
            ([['p'], ['s', 's', 's', 's', 's'], ['x', '.', 'd', 's', 'l']], .file [0x61])]
        working := [] }
    let c : Config := ⟨['D'], ['d', 's', 'l']⟩
    let names : List Text := [['s', 's', 's', 's', 's'], ['x', '.', 'd', 's', 'l']]
    let root : Path := ⟨'p' :: List.replicate 4090 '/'⟩
    let cause : Text := "Permission denied (os error 13)".toList
    let d' : Disk := { d with breaks := [([['p']], ⟨0, cause⟩)] }
    let cause' : Text := "Input/output error (os error 5)".toList
    let twoFolders : List (Location × Node) := [([['a']], .folder), ([['b']], .folder)]
    let d'' : Disk :=
      { nodes := twoFolders, working := [], breaks := [([['a']], ⟨0, cause⟩), ([['b']], ⟨0, cause'⟩)] }
    (c.IsValid ∧ d.IsTree ∧ d'.IsTree ∧ d''.IsTree) ∧
      (d.IsCollected c.extension root names ∧ ¬d.IsReadable (Disk.pathBelow root names) ∧
        loadScripts d c root = .ok []) ∧
      ((∀ names', d'.IsCollected c.extension ⟨['p']⟩ names' →
          d'.IsReadable (Disk.pathBelow ⟨['p']⟩ names')) ∧
        loadScripts d' c ⟨['p']⟩ = .error (.host cause)) ∧
      loadScripts d'' c ⟨['.']⟩ = .error (.host cause) ∧
        loadScripts { d'' with nodes := twoFolders.reverse } c ⟨['.']⟩ = .error (.host cause') := by
  intro d c names root cause d' cause' twoFolders d''
  have hd : d.IsTree := by decide +kernel
  have hd' : d'.IsTree := by decide +kernel
  have hd'' : d''.IsTree := by decide +kernel
  have hnul : '\x00' ∉ root.text := by
    intro h
    rcases List.mem_cons.1 h with h | h
    · exact absurd h (by decide)
    · exact absurd (List.eq_of_mem_replicate h) (by decide)
  have hwalk : d.walk 0 [] (Path.pieces root.text) = .ok [['p']] := by decide +kernel
  have hroot : d.IsRoot root [['p']] :=
    ⟨hd, Disk.exists_leads_of_walk hnul (List.cons_ne_nil _ _) rfl hwalk, rfl,
      Disk.linkFree_of_forall (by decide +kernel) _⟩
  have hroot' : d'.IsRoot ⟨['p']⟩ [['p']] :=
    ⟨hd', Disk.exists_leads_of_walk (k := 0) (by decide) (by decide) rfl (by decide +kernel), rfl,
      Disk.linkFree_of_forall (by decide +kernel) _⟩
  have hscript : d.node? ([['p']] ++ names) = some (.file [0x61]) := by decide +kernel
  have hlong : (d.find (Disk.pathBelow root names)).toBool = false := by decide +kernel
  have hfind : d'.find (Disk.pathBelow ⟨['p']⟩ names) = .ok (.file (Utf8.encode ['a'])) := by
    decide +kernel
  refine ⟨⟨⟨rfl, rfl, rfl⟩, hd, hd', hd''⟩, ⟨?_, ?_, by decide +kernel⟩,
    ⟨?_, by decide +kernel⟩, by decide +kernel, by decide +kernel⟩
  · exact hroot.isCollected_iff.2 ⟨⟨_, hscript, by simp⟩, by decide +kernel⟩
  · rintro ⟨t, ht⟩
    rw [ht] at hlong
    cases hlong
  · intro names' hnames'
    obtain ⟨⟨x, hx, hfolder⟩, -⟩ := hroot'.isCollected_iff.1 hnames'
    have hmem := Disk.mem_nodes_of_node? (by simp) hx
    obtain ⟨rfl, -⟩ : names' = names ∧ x = .file [0x61] := by simpa [d', d, hfolder] using hmem
    exact ⟨['a'], hfind⟩

end ScriptLexer
