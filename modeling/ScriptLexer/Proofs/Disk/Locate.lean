import ScriptLexer.Proofs.Disk.Walk

/-!
# What paths lead to

**In the tree** (`Disk.Leads`). A path leads where the walk along its pieces ends, over some number
of links. This is said of the nodes of the disk, and of no limit.

**The limits** (`Disk.Takes`). The host takes a path that is not too long and does not lead over too
many links. What a path leads to is found exactly if the host takes the path (`locate_eq_ok_iff`,
`find_eq_ok_iff`).

**Below a folder** (`LeadTo`). A path leads where its components do, which may be those of a root,
whatever links and `..` that has, and names below it. Without links below the folder, a path to a
file is a location of the tree (`LeadTo.find_eq_file_iff`). With links, the path has no more names
than the links and the height of the tree allow (`LeadTo.length_lt`).
-/

namespace ScriptLexer.Disk

/-! ## Paths and limits -/

/-- Where a path with these components starts from. -/
def origin (d : Disk) (cs : List Component) : Location := if .root ∈ cs then [] else d.working

/-- The path leads to a location, over so many links. -/
structure Leads (d : Disk) (p : Path) (l : Location) (j : Nat) : Prop where
  nul : '\x00' ∉ p.text
  ne_nil : p.text ≠ []
  walks : d.Walks j (d.origin p.components) (Path.pieces p.text) l

/-- The path leads to the folder at a location. -/
structure LeadsToFolder (d : Disk) (p : Path) (l : Location) : Prop where
  leads : ∃ j, d.Leads p l j
  folder : d.node? l = some .folder

/-- The host takes the path: it is not too long, and does not lead over too many links. -/
structure Takes (d : Disk) (p : Path) : Prop where
  length : d.admits p = true
  links : ∀ l j, d.Leads p l j → j ≤ linkLimit

theorem startOf_eq_origin (d : Disk) (p : Path) :
    startOf p.text d.working = d.origin p.components := by
  have habsolute : p.text.head? = some '/' ↔ p.isAbsolute = true := by
    rw [Path.isAbsolute, beq_iff_eq]
  simp only [startOf, origin, habsolute, Path.isAbsolute_iff]

section

variable {d : Disk} {p : Path} {l m : Location} {i j : Nat}

theorem exists_leads_of_walk {k : Nat} (hnul : '\x00' ∉ p.text) (hnil : p.text ≠ [])
    (hstart : startOf p.text d.working = l) (h : d.walk k l (Path.pieces p.text) = .ok m) :
    ∃ j, d.Leads p m j := by
  obtain ⟨j, -, hwalks⟩ := walk_eq_ok_iff.1 h
  refine ⟨j, hnul, hnil, ?_⟩
  rwa [← startOf_eq_origin, hstart]

theorem Leads.unique (h : d.Leads p l j) (h' : d.Leads p m i) : j = i ∧ l = m :=
  h.walks.unique h'.walks

theorem LeadsToFolder.unique (h : d.LeadsToFolder p l) (h' : d.LeadsToFolder p m) : l = m := by
  obtain ⟨j, hl⟩ := h.leads
  obtain ⟨i, hm⟩ := h'.leads
  exact (hl.unique hm).2

/-- **A path is located exactly if the host takes it**, and then where it leads. -/
theorem locate_eq_ok_iff : d.locate p = .ok m ↔ d.Takes p ∧ ∃ j, d.Leads p m j := by
  have hwalk : d.locate p = .ok m ↔ '\x00' ∉ p.text ∧ d.admits p = true ∧ p.text ≠ [] ∧
      ∃ j, j ≤ linkLimit ∧ d.Walks j (d.origin p.components) (Path.pieces p.text) m := by
    rw [locate, ← startOf_eq_origin, ← walk_eq_ok_iff]
    by_cases hnul : '\x00' ∈ p.text
    · simp [hnul]
    · by_cases hlength : d.admits p = true
      · by_cases hnil : p.text = [] <;> simp [hnul, hlength, hnil]
      · simp [hnul, hlength]
  rw [hwalk]
  constructor
  · rintro ⟨hnul, hlength, hnil, j, hj, hwalks⟩
    have hleads : d.Leads p m j := ⟨hnul, hnil, hwalks⟩
    refine ⟨⟨hlength, fun l i hl => ?_⟩, j, hleads⟩
    rwa [← (hleads.unique hl).1]
  · rintro ⟨htakes, j, hleads⟩
    exact ⟨hleads.nul, htakes.length, hleads.ne_nil, j, htakes.links m j hleads, hleads.walks⟩

/-- **A node is found exactly if a path that the host takes leads to it.** -/
theorem find_eq_ok_iff {x : Node} :
    d.find p = .ok x ↔ d.Takes p ∧ ∃ l j, d.Leads p l j ∧ d.node? l = some x := by
  unfold find
  cases hp : d.locate p with
  | error e =>
    constructor
    · intro h
      cases h
    · rintro ⟨htakes, l, j, hl, -⟩
      rw [locate_eq_ok_iff.2 ⟨htakes, j, hl⟩] at hp
      cases hp
  | ok m =>
    obtain ⟨htakes, j, hm⟩ := locate_eq_ok_iff.1 hp
    dsimp only
    constructor
    · intro h
      split at h
      · next hx => exact ⟨htakes, m, j, hm, Except.ok.inj h ▸ hx⟩
      · cases h
    · rintro ⟨-, l, i, hl, hx⟩
      rw [(hm.unique hl).2, hx]

theorem isFolder_eq_true_iff :
    d.isFolder p = true ↔ d.Takes p ∧ ∃ l, d.LeadsToFolder p l := by
  have hfind : d.isFolder p = true ↔ d.find p = .ok .folder := by
    unfold isFolder
    split <;> simp_all
  rw [hfind, find_eq_ok_iff]
  constructor
  · rintro ⟨htakes, l, j, hl, hx⟩
    exact ⟨htakes, l, ⟨j, hl⟩, hx⟩
  · rintro ⟨htakes, l, ⟨j, hl⟩, hx⟩
    exact ⟨htakes, l, j, hl, hx⟩

theorem isFile_eq_true_iff : d.isFile p = true ↔ ∃ bytes, d.find p = .ok (.file bytes) := by
  unfold isFile
  split <;> simp_all

end

/-! ## Disks with the same files -/

/-- The disks have the same nodes, in whatever order they list them, and take the same paths. -/
structure Agrees (d' d : Disk) : Prop where
  node : ∀ l, d'.node? l = d.node? l
  working : d'.working = d.working
  pathLimit : d'.pathLimit = d.pathLimit

namespace Agrees

variable {d' d : Disk} {p : Path} {l : Location}

theorem symm (h : d'.Agrees d) : d.Agrees d' :=
  ⟨fun l => (h.node l).symm, h.working.symm, h.pathLimit.symm⟩

theorem leads {j : Nat} (h : d'.Agrees d) (hl : d'.Leads p l j) : d.Leads p l j := by
  have horigin : d.origin p.components = d'.origin p.components := by
    rw [origin, origin, h.working]
  refine ⟨hl.nul, hl.ne_nil, ?_⟩
  rw [horigin]
  exact hl.walks.congr h.symm.node

theorem leadsToFolder (h : d'.Agrees d) (hl : d'.LeadsToFolder p l) : d.LeadsToFolder p l := by
  obtain ⟨j, hj⟩ := hl.leads
  exact ⟨⟨j, h.leads hj⟩, (h.node l).symm.trans hl.folder⟩

theorem takes (h : d'.Agrees d) (hp : d'.Takes p) : d.Takes p := by
  refine ⟨?_, fun l j hl => hp.links l j (h.symm.leads hl)⟩
  have hlength := hp.length
  rwa [admits, h.pathLimit] at hlength

theorem find_eq (h : d'.Agrees d) (p : Path) : d'.find p = d.find p := by
  have hlocate : d'.locate p = d.locate p := by
    rw [locate, locate, admits, admits, h.pathLimit, h.working, walk_congr h.node]
  rw [find, find, hlocate]
  simp only [h.node]

end Agrees

/-- **What paths lead to does not depend on the order in which folders list their entries.** -/
theorem agrees_of_perm {d : Disk} (hdistinct : (d.nodes.map Prod.fst).Nodup)
    {nodes : List (Location × Node)} (hperm : nodes.Perm d.nodes) :
    ({ d with nodes := nodes } : Disk).Agrees d :=
  ⟨node?_eq_of_perm hdistinct hperm, rfl, rfl⟩

/-! ## The text of a file -/

/-- The path leads to a file that holds the text in UTF-8. -/
def HasText (d : Disk) (p : Path) (t : Text) : Prop := d.find p = .ok (.file (Utf8.encode t))

theorem withoutMark_eq {t : Text} (h : t.head? ≠ some '\ufeff') : withoutMark t = t := by
  unfold withoutMark
  split
  · exact absurd rfl h
  · rfl

/-- **Reading succeeds on files in UTF-8**, with their text less a mark at its start. -/
theorem read_eq_ok_iff {d : Disk} {p : Path} {text : Text} :
    d.fileSystem.read p = .ok text ↔ ∃ t, d.HasText p t ∧ text = withoutMark t := by
  have hread : d.fileSystem.read p = .ok text ↔ d.readText p = .ok text := by
    simp only [fileSystem]
    split <;> simp_all
  rw [hread, readText, readBytes]
  constructor
  · intro h
    split at h
    · cases h
    next bytes hbytes =>
    split at h
    · next t ht =>
      refine ⟨t, ?_, (Except.ok.inj h).symm⟩
      rw [HasText, ← Utf8.decode?_eq_some_iff.1 ht]
      split at hbytes
      · cases hbytes
      · next hfind => rw [hfind, Except.ok.inj hbytes]
      · cases hbytes
    · cases h
  · rintro ⟨t, ht, rfl⟩
    have hdecode : Utf8.decode? (Utf8.encode t) = some t := Utf8.decode?_eq_some_iff.2 rfl
    rw [HasText] at ht
    simp [ht, hdecode]

/-! ## Names below a folder -/

/-- The components lead to the folder at a location, over so many links. -/
structure LeadTo (d : Disk) (cs : List Component) (l : Location) (j : Nat) : Prop where
  folder : d.node? l = some .folder
  walks : d.Walks j (d.origin cs) (cs.filterMap Path.piece?) l
  nul : ∀ n, .name n ∈ cs → '\x00' ∉ n

theorem nul_notMem_iff (p : Path) :
    '\x00' ∉ p.text ↔ ∀ n, .name n ∈ p.components → '\x00' ∉ n := by
  rw [Path.mem_text_iff (by decide) (by decide)]
  simp

section

variable {d : Disk} {cs : List Component} {l m : Location} {i j : Nat} {names : List Text} {p : Path}

theorem Leads.leadTo (h : d.Leads p l j) (hl : d.node? l = some .folder) :
    d.LeadTo p.components l j := by
  refine ⟨hl, ?_, (nul_notMem_iff p).1 h.nul⟩
  rw [← Path.steps_eq]
  exact h.walks.steps

theorem IsTree.leadTo_working (hd : d.IsTree) : d.LeadTo [] d.working 0 :=
  ⟨hd.working, .nil, fun _ hn => absurd hn List.not_mem_nil⟩

theorem steps_below (hp : p.components = cs ++ names.map .name) :
    (Path.pieces p.text).filter isStep = cs.filterMap Path.piece? ++ names := by
  have hsteps : (Path.pieces p.text).filter isStep = p.steps := rfl
  have hnames : (names.map Component.name).filterMap Path.piece? = names := by
    rw [List.filterMap_map]
    exact List.filterMap_some
  rw [hsteps, Path.steps_eq, hp, List.filterMap_append, hnames]

theorem origin_below (hp : p.components = cs ++ names.map .name) :
    d.origin p.components = d.origin cs := by
  simp [origin, hp]

/-- **A path below a folder leads where its names lead from there**, over the links of both. -/
theorem LeadTo.walks_of_leads (h : d.LeadTo cs l j) (hp : p.components = cs ++ names.map .name)
    (hm : d.Leads p m i) : ∃ i', j + i' = i ∧ d.Walks i' l names m := by
  have hsteps := hm.walks.steps
  rw [steps_below hp, origin_below hp] at hsteps
  obtain ⟨j', i', l', hi, hfront, hback⟩ := walks_append_iff.1 hsteps
  obtain ⟨rfl, rfl⟩ := h.walks.unique hfront
  exact ⟨i', hi, hback⟩

/-- **A path spelled with the names of a node leads there**, if there are no links below. -/
theorem LeadTo.leads (hd : d.IsTree) (h : d.LeadTo cs l j) (hfree : d.LinkFree l)
    (hp : p.components = cs ++ names.map .name) {x : Node}
    (hx : d.node? (l ++ names) = some x) (hnil : p.text ≠ [])
    (hend : x = .folder ∨ p.EndsInName) : d.Leads p (l ++ names) j := by
  have horigin : d.node? (d.origin cs) = some .folder := by
    unfold origin
    split
    · rfl
    · exact hd.working
  have hnul : '\x00' ∉ p.text := by
    rw [nul_notMem_iff, hp]
    intro n hn
    rcases List.mem_append.1 hn with hn | hn
    · exact h.nul n hn
    · obtain ⟨n', hn', he⟩ := List.mem_map.1 hn
      rw [← Component.name.inj he]
      exact (hd.isEntryName_of_mem hx (List.mem_append_right l hn')).nul
  have hsteps : d.Walks j (d.origin cs) ((Path.pieces p.text).filter isStep) (l ++ names) := by
    rw [steps_below hp]
    exact walks_append_iff.2 ⟨j, 0, l, rfl, h.walks, hd.walks_of_node? hfree hx⟩
  refine ⟨hnul, hnil, ?_⟩
  rw [origin_below hp]
  rcases hend with rfl | ⟨n, hn, hname⟩
  · exact walks_of_steps horigin hx hsteps
  · obtain ⟨front, hfront⟩ := List.getLast?_eq_some_iff.1 hn
    rw [hfront] at hsteps ⊢
    exact walks_of_steps_concat horigin hname.isSome hsteps

theorem LeadTo.eq_of_leads (h : d.LeadTo cs l j) (hfree : d.LinkFree l)
    (hp : p.components = cs ++ names.map .name) (hnames : ∀ n ∈ names, Path.IsName n)
    (hm : d.Leads p m i) : i = j ∧ m = l ++ names := by
  obtain ⟨i', rfl, hwalks⟩ := h.walks_of_leads hp hm
  obtain ⟨rfl, rfl⟩ := hwalks.eq_append hfree hnames
  exact ⟨rfl, rfl⟩

/-- **A path finds the file that its names lead to**, below a folder without links. -/
theorem LeadTo.find_eq_file_iff (hd : d.IsTree) (h : d.LeadTo cs l j) (hfree : d.LinkFree l)
    (hp : p.components = cs ++ names.map .name) (hnames : ∀ n ∈ names, Path.IsName n)
    (hend : p.EndsInName) {bytes : List UInt8} :
    d.find p = .ok (.file bytes) ↔ d.Takes p ∧ d.node? (l ++ names) = some (.file bytes) := by
  rw [find_eq_ok_iff]
  constructor
  · rintro ⟨htakes, m, i, hm, hx⟩
    obtain ⟨-, rfl⟩ := h.eq_of_leads hfree hp hnames hm
    exact ⟨htakes, hx⟩
  · rintro ⟨htakes, hx⟩
    exact ⟨htakes, _, _, h.leads hd hfree hp hx hend.text_ne_nil (.inr hend), hx⟩

/-- **Where few links are followed, names lead only so deep.** -/
theorem LeadTo.length_lt (h : d.LeadTo cs l j) (hp : p.components = cs ++ names.map .name)
    (hnames : ∀ n ∈ names, Path.IsName n) (hm : d.Leads p m i) (hi : i ≤ linkLimit)
    (hnode : (d.node? m).isSome = true) : names.length < (linkLimit + 1) * (d.height + 1) := by
  obtain ⟨x, hx⟩ := Option.isSome_iff_exists.1 hnode
  obtain ⟨i', rfl, hwalks⟩ := h.walks_of_leads hp hm
  have hbound := hwalks.length_add_le hnames
  have hheight : m.length ≤ d.height := length_le_height hx
  have hlinks : i' * (d.height + 1) ≤ linkLimit * (d.height + 1) :=
    Nat.mul_le_mul_right _ (Nat.le_trans (Nat.le_add_left i' j) hi)
  rw [Nat.succ_mul]
  omega

end

end ScriptLexer.Disk
