import ScriptLexer.Proofs.Path.Below
import ScriptLexer.Proofs.Project.Collecting

/-!
# Roots of folders without links

Below a root that leads to a folder without links (`Disk.IsRoot`), names lead down the tree, and
nowhere else, however the root is spelled. So what is collected, searched, found and read there can
be said of the nodes of the tree and of the paths that the host takes (`IsRoot.isCollected_iff`,
`IsRoot.isSearched_iff`, `IsRoot.isFound_iff`, `IsRoot.hasText_iff`).
-/

namespace ScriptLexer.Disk

/-- The root leads to the folder at a location, and there are no links below. -/
structure IsRoot (d : Disk) (root : Path) (l : Location) : Prop where
  tree : d.IsTree
  leads : ∃ j, d.Leads root l j
  folder : d.node? l = some .folder
  linkFree : d.LinkFree l

theorem isBelow_pathBelow (root : Path) {names : List Text} (hne : names ≠ [])
    (h : ∀ n ∈ names, IsEntryName n) : (pathBelow root names).IsBelow root.components names := by
  refine ⟨components_pathBelow root h, fun n hn => (h n hn).isName, ?_⟩
  obtain ⟨front, n, rfl⟩ := (List.eq_nil_or_concat' names).resolve_left hne
  have hn : IsEntryName n := h n (by simp)
  rw [pathBelow_concat]
  exact Path.endsInName_join_name _ hn.isName hn.slash

namespace IsRoot

variable {d : Disk} {root : Path} {l m : Location} {names : List Text} {extension : Text}

theorem leadTo (h : d.IsRoot root l) : ∃ j, d.LeadTo root.components l j := by
  obtain ⟨j, hj⟩ := h.leads
  exact ⟨j, hj.leadTo h.folder⟩

theorem text_ne_nil (h : d.IsRoot root l) : root.text ≠ [] := by
  obtain ⟨j, hj⟩ := h.leads
  exact hj.ne_nil

theorem isEntryName (h : d.IsRoot root l) {x : Node} (hx : d.node? (l ++ names) = some x) :
    ∀ n ∈ names, IsEntryName n :=
  fun _ hn => h.tree.isEntryName_of_mem hx (List.mem_append_right l hn)

theorem ne_nil (h : d.IsRoot root l) {x : Node} (hx : d.node? (l ++ names) = some x)
    (hfolder : x ≠ .folder) : names ≠ [] := by
  rintro rfl
  rw [List.append_nil, h.folder] at hx
  exact hfolder (Option.some.inj hx).symm

/-- **Names lead down the tree.** -/
theorem leads_pathBelow (h : d.IsRoot root l) {x : Node} (hx : d.node? (l ++ names) = some x) :
    ∃ j, d.Leads (pathBelow root names) (l ++ names) j := by
  by_cases hne : names = []
  · subst hne
    rw [List.append_nil]
    exact h.leads
  · obtain ⟨j, hroot⟩ := h.leadTo
    have hbelow := isBelow_pathBelow root hne (h.isEntryName hx)
    exact ⟨j, hroot.leads h.tree h.linkFree hbelow.components hx hbelow.endsInName.text_ne_nil
      (.inr hbelow.endsInName)⟩

theorem leadsToFolder_iff (h : d.IsRoot root l) (hnames : ∀ n ∈ names, IsEntryName n) :
    d.LeadsToFolder (pathBelow root names) m ↔ m = l ++ names ∧ d.node? m = some .folder := by
  constructor
  · rintro ⟨⟨i, hi⟩, hfolder⟩
    obtain ⟨j, hroot⟩ := h.leadTo
    have hcomponents := components_pathBelow root hnames
    exact ⟨(hroot.eq_of_leads h.linkFree hcomponents (fun n hn => (hnames n hn).isName) hi).2,
      hfolder⟩
  · rintro ⟨rfl, hfolder⟩
    exact ⟨h.leads_pathBelow hfolder, hfolder⟩

theorem hasEntry_iff (h : d.IsRoot root l) (hnames : ∀ n ∈ names, IsEntryName n) {n : Text} :
    d.HasEntry (pathBelow root names) n ↔ (d.node? (l ++ names ++ [n])).isSome = true := by
  constructor
  · rintro ⟨m, hm, hn⟩
    obtain ⟨rfl, -⟩ := (h.leadsToFolder_iff hnames).1 hm
    exact hn
  · intro hn
    obtain ⟨x, hx⟩ := Option.isSome_iff_exists.1 hn
    have hfolder := h.tree.folder_of_append (List.cons_ne_nil n []) hx
    exact ⟨_, (h.leadsToFolder_iff hnames).2 ⟨rfl, hfolder⟩, hn⟩

/-- **Each part of the names of a node is an entry of the folder before.** -/
theorem hasEntry_of_node? (h : d.IsRoot root l) {x : Node} (hx : d.node? (l ++ names) = some x)
    {front back : List Text} {n : Text} (he : names = front ++ n :: back) :
    d.HasEntry (pathBelow root front) n := by
  subst he
  have hnames := h.isEntryName hx
  rw [h.hasEntry_iff fun m hm => hnames m (List.mem_append_left _ hm)]
  by_cases hback : back = []
  · subst hback
    rw [List.append_assoc, hx]
    rfl
  · rw [List.append_cons, ← List.append_assoc, ← List.append_assoc] at hx
    rw [h.tree.folder_of_append hback hx]
    rfl

/-- A host that takes all paths below the root takes those to the nodes there, and to folders on the
way. -/
theorem takes_of_takesAll (h : d.IsRoot root l) {depth : Nat} (hall : d.takesAll depth root = true)
    {back : List Text} {x : Node} (hx : d.node? (l ++ (names ++ back)) = some x) :
    d.Takes (pathBelow root names) := by
  apply Disk.takes_of_takesAll hall
  rintro front n back' rfl
  exact h.hasEntry_of_node? hx (List.append_assoc front (n :: back') back)

theorem exists_node?_of_hasEntry (h : d.IsRoot root l)
    (hentries : ∀ front n back, names = front ++ n :: back → d.HasEntry (pathBelow root front) n) :
    ∃ x, d.node? (l ++ names) = some x := by
  rcases List.eq_nil_or_concat' names with rfl | ⟨front, n, rfl⟩
  · exact ⟨.folder, by rw [List.append_nil, h.folder]⟩
  · have hnames : ∀ m ∈ front, IsEntryName m := by
      intro m hm
      obtain ⟨front', back, rfl⟩ := List.append_of_mem hm
      exact (hentries front' m (back ++ [n]) (by simp)).isEntryName h.tree
    rw [← List.append_assoc, ← Option.isSome_iff_exists, ← h.hasEntry_iff hnames]
    exact hentries front n [] rfl

/-- **What is collected are the nodes of the tree that are no folders.** -/
theorem isCollected_iff (h : d.IsRoot root l) :
    d.IsCollected extension root names ↔
      (∃ x, d.node? (l ++ names) = some x ∧ x ≠ .folder) ∧
        (pathBelow root names).hasExtension extension = true := by
  constructor
  · intro hc
    obtain ⟨x, hx⟩ := h.exists_node?_of_hasEntry hc.entries
    refine ⟨⟨x, hx, ?_⟩, hc.extension⟩
    rintro rfl
    exact hc.notFolder _ ((h.leadsToFolder_iff (h.isEntryName hx)).2 ⟨rfl, hx⟩)
  · rintro ⟨⟨x, hx, hfolder⟩, hextension⟩
    refine ⟨h.ne_nil hx hfolder, fun _ _ _ he => h.hasEntry_of_node? hx he, ?_, hextension⟩
    intro m hm
    obtain ⟨rfl, hm⟩ := (h.leadsToFolder_iff (h.isEntryName hx)).1 hm
    exact hfolder (Option.some.inj (hx.symm.trans hm))

/-- **What is searched are the folders of the tree**, if the host takes the paths of all folders on
the way. -/
theorem isSearched_iff (h : d.IsRoot root l) :
    d.IsSearched root names m ↔ m = l ++ names ∧ d.node? m = some .folder ∧
      ∀ front back, names = front ++ back → d.Takes (pathBelow root front) := by
  constructor
  · intro hs
    obtain ⟨x, hx⟩ := h.exists_node?_of_hasEntry fun front n back he => (hs.entries front n back he).2
    obtain ⟨rfl, hfolder⟩ := (h.leadsToFolder_iff (h.isEntryName hx)).1 hs.folder
    refine ⟨rfl, hfolder, ?_⟩
    rintro front back rfl
    cases back with
    | nil =>
      have htakes := hs.takes
      rwa [List.append_nil] at htakes
    | cons n back => exact (hs.entries front n back rfl).1
  · rintro ⟨rfl, hfolder, htakes⟩
    refine ⟨?_, htakes names [] (List.append_nil _).symm, ?_⟩
    · exact fun front n back he =>
        ⟨htakes front (n :: back) he, h.hasEntry_of_node? hfolder he⟩
    · exact (h.leadsToFolder_iff (h.isEntryName hfolder)).2 ⟨rfl, hfolder⟩

theorem isListable_iff (h : d.IsRoot root l) :
    d.IsListable root ↔ ∀ names, d.node? (l ++ names) = some .folder →
      (∀ front back, names = front ++ back → d.Takes (pathBelow root front)) →
        d.break? (names.length + 1) (l ++ names) = none := by
  constructor
  · intro hlistable names hfolder htakes
    exact hlistable names _ (h.isSearched_iff.2 ⟨rfl, hfolder, htakes⟩)
  · intro hall names m hs
    obtain ⟨rfl, hfolder, htakes⟩ := h.isSearched_iff.1 hs
    exact hall names hfolder htakes

/-- **What is found are the nodes of the tree that the host does not find to be folders.** -/
theorem isFound_iff (h : d.IsRoot root l) :
    d.IsFound extension root names ↔ names ≠ [] ∧
      (∃ x, d.node? (l ++ names) = some x ∧ (x = .folder → ¬d.Takes (pathBelow root names))) ∧
        (∀ front back, back ≠ [] → names = front ++ back → d.Takes (pathBelow root front)) ∧
        (pathBelow root names).hasExtension extension = true := by
  constructor
  · intro hf
    obtain ⟨x, hx⟩ := h.exists_node?_of_hasEntry fun front n back he => (hf.entries front n back he).2
    refine ⟨hf.ne_nil, ⟨x, hx, ?_⟩, ?_, hf.extension⟩
    · rintro rfl htakes
      have hfolder : d.isFolder (pathBelow root names) = true :=
        isFolder_eq_true_iff.2 ⟨htakes, _, (h.leadsToFolder_iff (h.isEntryName hx)).2 ⟨rfl, hx⟩⟩
      rw [hf.notFolder] at hfolder
      cases hfolder
    · intro front back hback he
      obtain ⟨n, back, rfl⟩ := List.exists_cons_of_ne_nil hback
      exact (hf.entries front n back he).1
  · rintro ⟨hne, ⟨x, hx, hfolder⟩, htakes, hextension⟩
    refine ⟨hne, ?_, ?_, hextension⟩
    · exact fun front n back he =>
        ⟨htakes front (n :: back) (List.cons_ne_nil n back) he, h.hasEntry_of_node? hx he⟩
    · rw [← Bool.not_eq_true, isFolder_eq_true_iff]
      rintro ⟨htakes, m, hm⟩
      obtain ⟨rfl, hm⟩ := (h.leadsToFolder_iff (h.isEntryName hx)).1 hm
      exact hfolder (Option.some.inj (hx.symm.trans hm)) htakes

/-- **The text of a file is that of the node**, if the host takes its path. -/
theorem hasText_iff (h : d.IsRoot root l) (hne : names ≠ []) (hnames : ∀ n ∈ names, IsEntryName n)
    {t : Text} :
    d.HasText (pathBelow root names) t ↔ d.Takes (pathBelow root names) ∧
      d.node? (l ++ names) = some (.file (Utf8.encode t)) := by
  obtain ⟨j, hroot⟩ := h.leadTo
  have hbelow := isBelow_pathBelow root hne hnames
  exact hroot.find_eq_file_iff h.tree h.linkFree hbelow.components hbelow.names hbelow.endsInName

end IsRoot

end ScriptLexer.Disk
