import Mathlib.Data.Char
import Mathlib.Data.List.Lex
import ScriptLexer.Project
import ScriptLexer.Proofs.Disk.Locate

/-!
# What a project collects

**In the tree** (`Disk.IsCollected`). The scripts below a root are what names lead to from there
through folders, each name an entry of the folder before, and that has the extension for scripts and
is no folder. Links are followed. This is said of the nodes of the disk, and of no limit.

**By the host** (`Disk.IsSearched`, `Disk.IsFound`). The search comes to those folders whose paths
the host takes, and those of all folders on the way. What it does not find to be a folder is a script
by its name. Both come to the same where the host takes the paths of all folders that lead to scripts,
and of all that are named like one (`Disk.TakesFolders`, `isFound_iff_isCollected`). In a tree with
a cycle of links and a script in it no host does.

**The search.** It succeeds if all folders that it comes to can be listed to their ends
(`exists_scripts_iff`). Then it gives what it finds, each once, sorted by its names (`mem_scripts`,
`sorted_scripts`). Otherwise it fails as one of the folders that cannot be listed
(`exists_break_of_scripts`).
-/

namespace ScriptLexer.Disk

/-! ## What there is -/

/-- The path leads to a folder that has an entry of this name. -/
def HasEntry (d : Disk) (folder : Path) (name : Text) : Prop :=
  ∃ l, d.LeadsToFolder folder l ∧ (d.node? (l ++ [name])).isSome = true

/-- The names lead from the root through folders to a script. -/
structure IsCollected (d : Disk) (extension : Text) (root : Path) (names : List Text) : Prop where
  ne_nil : names ≠ []
  entries : ∀ front name back, names = front ++ name :: back →
    d.HasEntry (pathBelow root front) name
  notFolder : ∀ l, ¬d.LeadsToFolder (pathBelow root names) l
  extension : (pathBelow root names).hasExtension extension = true

/-! ## What the host finds -/

/-- The host takes the path, and it leads to a folder that has an entry of this name. -/
def FindsEntry (d : Disk) (folder : Path) (name : Text) : Prop :=
  d.Takes folder ∧ d.HasEntry folder name

/-- The names lead from the root to the folder at a location, and the host takes the paths of all
folders on the way. -/
structure IsSearched (d : Disk) (root : Path) (names : List Text) (l : Location) : Prop where
  entries : ∀ front name back, names = front ++ name :: back →
    d.FindsEntry (pathBelow root front) name
  takes : d.Takes (pathBelow root names)
  folder : d.LeadsToFolder (pathBelow root names) l

/-- The names lead through folders whose paths the host takes to what it finds to be no folder. -/
structure IsFound (d : Disk) (extension : Text) (root : Path) (names : List Text) : Prop where
  ne_nil : names ≠ []
  entries : ∀ front name back, names = front ++ name :: back →
    d.FindsEntry (pathBelow root front) name
  notFolder : d.isFolder (pathBelow root names) = false
  extension : (pathBelow root names).hasExtension extension = true

/-- All folders that the search comes to can be listed to their ends. -/
def IsListable (d : Disk) (root : Path) : Prop :=
  ∀ names l, d.IsSearched root names l → d.break? (names.length + 1) l = none

/-- The host takes the paths of the folders that lead to scripts, and of the folders that the search
could take for scripts. -/
structure TakesFolders (d : Disk) (extension : Text) (root : Path) : Prop where
  leading : ∀ front back, back ≠ [] → d.IsCollected extension root (front ++ back) →
    d.Takes (pathBelow root front)
  named : ∀ front name l m, d.IsSearched root front l → d.HasEntry (pathBelow root front) name →
    d.LeadsToFolder (pathBelow root (front ++ [name])) m →
    (pathBelow root (front ++ [name])).hasExtension extension = true →
    d.Takes (pathBelow root (front ++ [name]))

variable {d : Disk} {extension : Text} {root : Path} {names : List Text} {l : Location}

/-! ## Entries -/

theorem HasEntry.isEntryName {p : Path} {n : Text} (h : d.HasEntry p n) (hd : d.IsTree) :
    IsEntryName n := by
  obtain ⟨l, -, hn⟩ := h
  obtain ⟨x, hx⟩ := Option.isSome_iff_exists.1 hn
  exact hd.isEntryName_of_mem hx (by simp)

theorem FindsEntry.isFolder {p : Path} {n : Text} (h : d.FindsEntry p n) : d.isFolder p = true := by
  obtain ⟨htakes, l, hl, -⟩ := h
  exact isFolder_eq_true_iff.2 ⟨htakes, l, hl⟩

theorem findsEntry_iff {p : Path} {n : Text} (htakes : d.Takes p) (hl : d.LeadsToFolder p l) :
    d.FindsEntry p n ↔ n ∈ d.namesIn l := by
  rw [mem_namesIn]
  constructor
  · rintro ⟨-, m, hm, hn⟩
    rwa [hl.unique hm]
  · exact fun hn => ⟨htakes, l, hl, hn⟩

theorem pathBelow_concat (root : Path) (names : List Text) (n : Text) :
    pathBelow root (names ++ [n]) = (pathBelow root names).join ⟨n⟩ :=
  List.foldl_append

theorem components_pathBelow (root : Path) (h : ∀ n ∈ names, IsEntryName n) :
    (pathBelow root names).components = root.components ++ names.map .name := by
  induction names using List.reverseRecOn with
  | nil => exact (List.append_nil _).symm
  | append_singleton names n ih =>
    have hn : IsEntryName n := h n (by simp)
    rw [pathBelow_concat, Path.components_join_name hn.isName hn.slash,
      ih fun m hm => h m (List.mem_append_left _ hm), List.map_append, List.append_assoc]
    rfl

theorem forall_split_cons {P : List Text → Text → Prop} {n : Text} :
    (∀ front m back, n :: names = front ++ m :: back → P front m) ↔
      P [] n ∧ ∀ front m back, names = front ++ m :: back → P (n :: front) m := by
  constructor
  · intro h
    refine ⟨h [] n names rfl, ?_⟩
    rintro front m back rfl
    exact h (n :: front) m back rfl
  · rintro ⟨hfirst, hrest⟩ front m back heq
    rcases List.cons_eq_append_iff.1 heq with ⟨rfl, hback⟩ | ⟨front, rfl, hnames⟩
    · cases hback
      exact hfirst
    · exact hrest front m back hnames

theorem isSearched_nil : d.IsSearched root [] l ↔ d.Takes root ∧ d.LeadsToFolder root l := by
  constructor
  · exact fun h => ⟨h.takes, h.folder⟩
  · exact fun ⟨htakes, hl⟩ => ⟨by simp, htakes, hl⟩

/-- **The folders that are searched below an entry of the root.** -/
theorem isSearched_cons {n : Text} :
    d.IsSearched root (n :: names) l ↔
      d.FindsEntry root n ∧ d.IsSearched (root.join ⟨n⟩) names l := by
  constructor
  · intro h
    obtain ⟨hentry, hentries⟩ := forall_split_cons.1 h.entries
    exact ⟨hentry, hentries, h.takes, h.folder⟩
  · rintro ⟨hentry, h⟩
    exact ⟨forall_split_cons.2 ⟨hentry, h.entries⟩, h.takes, h.folder⟩

theorem IsSearched.isFolder (h : d.IsSearched root names l) :
    d.isFolder (pathBelow root names) = true :=
  isFolder_eq_true_iff.2 ⟨h.takes, l, h.folder⟩

theorem IsSearched.isFolder_root (h : d.IsSearched root names l) : d.isFolder root = true := by
  cases names with
  | nil => exact h.isFolder
  | cons n names => exact (h.entries [] n names rfl).isFolder

theorem IsFound.isFolder_root (h : d.IsFound extension root names) : d.isFolder root = true := by
  obtain ⟨n, back, rfl⟩ := List.exists_cons_of_ne_nil h.ne_nil
  exact (h.entries [] n back rfl).isFolder

/-- **What is found below an entry of the root.** -/
theorem isFound_cons {n : Text} :
    d.IsFound extension root (n :: names) ↔
      d.FindsEntry root n ∧
        if d.isFolder (root.join ⟨n⟩) then d.IsFound extension (root.join ⟨n⟩) names
        else names = [] ∧ (root.join ⟨n⟩).hasExtension extension = true := by
  constructor
  · intro h
    obtain ⟨hentry, hentries⟩ := forall_split_cons.1 h.entries
    refine ⟨hentry, ?_⟩
    split
    · next hfolder =>
      refine ⟨?_, hentries, h.notFolder, h.extension⟩
      rintro rfl
      exact absurd (h.notFolder.symm.trans hfolder) Bool.false_ne_true
    · next hfolder =>
      have hnil : names = [] := by
        cases names with
        | nil => rfl
        | cons m back =>
          have hnext : d.FindsEntry (root.join ⟨n⟩) m := hentries [] m back rfl
          exact absurd hnext.isFolder hfolder
      subst hnil
      exact ⟨rfl, h.extension⟩
  · rintro ⟨hentry, h⟩
    split at h
    · exact ⟨List.cons_ne_nil _ _, forall_split_cons.2 ⟨hentry, h.entries⟩, h.notFolder,
        h.extension⟩
    · next hfolder =>
      obtain ⟨rfl, hextension⟩ := h
      have hfolder : d.isFolder (root.join ⟨n⟩) = false := Bool.not_eq_true _ ▸ hfolder
      have hentries : ∀ front m back, [n] = front ++ m :: back →
          d.FindsEntry (pathBelow root front) m := forall_split_cons.2 ⟨hentry, by simp⟩
      exact ⟨List.cons_ne_nil _ _, hentries, hfolder, hextension⟩

/-- **The folders on the way to what is found are searched.** -/
theorem IsFound.exists_isSearched {front back : List Text} {n : Text}
    (h : d.IsFound extension root (front ++ n :: back)) : ∃ l, d.IsSearched root front l := by
  obtain ⟨htakes, l, hl, -⟩ := h.entries front n back rfl
  refine ⟨l, ?_, htakes, hl⟩
  rintro front' m back' rfl
  exact h.entries front' m (back' ++ n :: back) (by simp)

/-- **The search finds what there is**, if the host takes the paths of the folders that matter. -/
theorem isFound_iff_isCollected (h : d.TakesFolders extension root) :
    d.IsFound extension root names ↔ d.IsCollected extension root names := by
  constructor
  · intro hfound
    refine ⟨hfound.ne_nil, fun front n back he => (hfound.entries front n back he).2, ?_,
      hfound.extension⟩
    intro m hm
    obtain ⟨front, n, rfl⟩ := (List.eq_nil_or_concat' names).resolve_left hfound.ne_nil
    obtain ⟨l, hl⟩ := hfound.exists_isSearched
    have hentry := (hfound.entries front n [] rfl).2
    have htakes := h.named front n l m hl hentry hm hfound.extension
    have hfolder := isFolder_eq_true_iff.2 ⟨htakes, m, hm⟩
    rw [hfound.notFolder] at hfolder
    cases hfolder
  · intro hcollected
    refine ⟨hcollected.ne_nil, ?_, ?_, hcollected.extension⟩
    · rintro front n back rfl
      exact ⟨h.leading front (n :: back) (List.cons_ne_nil n back) hcollected,
        hcollected.entries front n back rfl⟩
    · rw [← Bool.not_eq_true, isFolder_eq_true_iff]
      rintro ⟨-, l, hl⟩
      exact hcollected.notFolder l hl

/-! ## Limits that are kept -/

/-- Whether the host takes the paths of all that is below a path, at most so deep. -/
def takesAll (d : Disk) : Nat → Path → Bool
  | 0, _ => false
  | depth + 1, p =>
    match d.locate p with
    | .error _ => false
    | .ok l =>
      if d.node? l = some .folder then (d.namesIn l).all fun n => d.takesAll depth (p.join ⟨n⟩)
      else true

theorem takes_of_takesAll {depth : Nat} (h : d.takesAll depth root = true)
    (hentries : ∀ front n back, names = front ++ n :: back → d.HasEntry (pathBelow root front) n) :
    d.Takes (pathBelow root names) := by
  induction names generalizing depth root with
  | nil =>
    cases depth with
    | zero => cases h
    | succ depth =>
      rw [takesAll] at h
      split at h
      · cases h
      · next hl => exact (locate_eq_ok_iff.1 hl).1
  | cons n names ih =>
    obtain ⟨⟨l, hl, hn⟩, hrest⟩ := forall_split_cons.1 hentries
    cases depth with
    | zero => cases h
    | succ depth =>
      rw [takesAll] at h
      split at h
      · cases h
      next m hm =>
      obtain ⟨-, j, hj⟩ := locate_eq_ok_iff.1 hm
      obtain ⟨i, hi⟩ := hl.leads
      obtain ⟨-, rfl⟩ := hi.unique hj
      rw [if_pos hl.folder, List.all_eq_true] at h
      exact ih (h n (mem_namesIn.2 hn)) hrest

/-- **A host that takes all paths takes those that matter.** -/
theorem takesFolders_of_takesAll {depth : Nat} (h : d.takesAll depth root = true) :
    d.TakesFolders extension root := by
  constructor
  · intro front back _ hcollected
    apply takes_of_takesAll h
    rintro front' n back' rfl
    exact hcollected.entries front' n (back' ++ back) (by simp)
  · intro front name l m hsearched hentry _ _
    apply takes_of_takesAll h
    intro front' n back he
    rcases List.eq_nil_or_concat' back with rfl | ⟨back, n', rfl⟩
    · obtain ⟨rfl, hn⟩ := List.append_inj' he rfl
      cases hn
      exact hentry
    · rw [← List.cons_append, ← List.append_assoc] at he
      obtain ⟨rfl, -⟩ := List.append_inj' he rfl
      exact (hsearched.entries front' n back rfl).2

/-! ## Deep enough -/

/-- **A folder that is searched is not deep.** -/
theorem IsSearched.length_lt (hd : d.IsTree) (h : d.IsSearched root names l) :
    names.length < d.depthBound := by
  have hnames : ∀ n ∈ names, IsEntryName n := by
    intro n hn
    obtain ⟨front, back, rfl⟩ := List.append_of_mem hn
    exact (h.entries front n back rfl).2.isEntryName hd
  obtain ⟨j, hj⟩ := h.folder.leads
  have hroot : ∃ l₀ i, d.LeadTo root.components l₀ i := by
    by_cases hnil : names = []
    · subst hnil
      exact ⟨l, j, hj.leadTo h.folder.folder⟩
    · obtain ⟨n, back, rfl⟩ := List.exists_cons_of_ne_nil hnil
      obtain ⟨-, l₀, ⟨⟨i, hi⟩, hfolder⟩, -⟩ := h.entries [] n back rfl
      exact ⟨l₀, i, hi.leadTo hfolder⟩
  obtain ⟨l₀, i, hroot⟩ := hroot
  exact hroot.length_lt (components_pathBelow root hnames) (fun n hn => (hnames n hn).isName) hj
    (h.takes.links l j hj) (h.folder.folder ▸ rfl)

theorem IsFound.length_le (hd : d.IsTree) (h : d.IsFound extension root names) :
    names.length ≤ d.depthBound := by
  obtain ⟨front, n, rfl⟩ := (List.eq_nil_or_concat' names).resolve_left h.ne_nil
  obtain ⟨l, hl⟩ := h.exists_isSearched
  rw [List.length_append]
  exact hl.length_lt hd

/-! ## Collecting from entries -/

section

variable {α : Type} {find : Text → Except Text (List α)} {found : List α} {cause : Text}

/-- **Collecting that succeeds does so for each name**, and gives what is found under the names. -/
theorem mem_collect (h : collect find names = .ok found) :
    (∀ n ∈ names, ∃ part, find n = .ok part) ∧
      ∀ x, x ∈ found ↔ ∃ n ∈ names, ∃ part, find n = .ok part ∧ x ∈ part := by
  induction names generalizing found with
  | nil =>
    cases h
    simp
  | cons n names ih =>
    rw [collect] at h
    split at h
    · cases h
    next part hpart =>
    split at h
    · cases h
    next more hmore =>
    cases h
    obtain ⟨hall, hmem⟩ := ih hmore
    refine ⟨List.forall_mem_cons.2 ⟨⟨part, hpart⟩, hall⟩, fun x => ?_⟩
    rw [List.mem_append, hmem]
    simp [hpart]

theorem exists_of_collect_eq_error (h : collect find names = .error cause) :
    ∃ n ∈ names, find n = .error cause := by
  induction names with
  | nil => cases h
  | cons n names ih =>
    rw [collect] at h
    split at h
    · next hn =>
      cases h
      exact ⟨n, List.mem_cons_self, hn⟩
    split at h
    · next hrest =>
      cases h
      obtain ⟨m, hm, hcause⟩ := ih hrest
      exact ⟨m, List.mem_cons_of_mem n hm, hcause⟩
    · cases h

theorem nodup_collect (key : α → Option Text) (h : collect find names = .ok found)
    (hnames : names.Nodup) (hnodup : ∀ n part, find n = .ok part → part.Nodup)
    (hkey : ∀ n part, find n = .ok part → ∀ x ∈ part, key x = some n) : found.Nodup := by
  induction names generalizing found with
  | nil =>
    cases h
    exact .nil
  | cons n names ih =>
    rw [collect] at h
    split at h
    · cases h
    next part hpart =>
    split at h
    · cases h
    next more hmore =>
    cases h
    obtain ⟨hn, hnames⟩ := List.nodup_cons.1 hnames
    rw [List.nodup_append]
    refine ⟨hnodup n part hpart, ih hmore hnames, ?_⟩
    rintro x hx y hy rfl
    obtain ⟨m, hm, part', hpart', hx'⟩ := ((mem_collect hmore).2 x).1 hy
    have hkeys := (hkey n part hpart x hx).symm.trans (hkey m part' hpart' x hx')
    exact hn (Option.some.inj hkeys ▸ hm)

end

/-! ## The search -/

theorem map_eq_ok {α β ε : Type} {f : α → β} {x : Except ε α} {y : β} :
    x.map f = .ok y ↔ ∃ a, x = .ok a ∧ f a = y := by
  cases x <;> simp [Except.map]

theorem map_eq_error {α β ε : Type} {f : α → β} {x : Except ε α} {e : ε} :
    x.map f = .error e ↔ x = .error e := by
  cases x <;> simp [Except.map]

section

variable {search : Path → Except Text (List (List Text))} {n : Text} {part : List (List Text)}

theorem searchEntry_eq_ok (h : d.searchEntry extension search root n = .ok part) :
    (d.isFolder (root.join ⟨n⟩) = true → ∃ found, search (root.join ⟨n⟩) = .ok found) ∧
      ∀ m, m ∈ part ↔ ∃ rest, m = n :: rest ∧
        if d.isFolder (root.join ⟨n⟩) then ∃ found, search (root.join ⟨n⟩) = .ok found ∧ rest ∈ found
        else rest = [] ∧ (root.join ⟨n⟩).hasExtension extension = true := by
  unfold searchEntry at h
  dsimp only at h
  split at h
  · next hfolder =>
    obtain ⟨found, hfound, rfl⟩ := map_eq_ok.1 h
    refine ⟨fun _ => ⟨found, hfound⟩, fun m => ?_⟩
    simp [hfolder, hfound, eq_comm, and_comm]
  · next hfolder =>
    refine ⟨fun he => absurd he hfolder, fun m => ?_⟩
    split at h
    · next hextension =>
      cases h
      simp [hfolder, hextension]
    · next hextension =>
      cases h
      simp [hfolder, hextension]

theorem searchEntry_eq_error {cause : Text}
    (h : d.searchEntry extension search root n = .error cause) :
    d.isFolder (root.join ⟨n⟩) = true ∧ search (root.join ⟨n⟩) = .error cause := by
  unfold searchEntry at h
  dsimp only at h
  split at h
  · next hfolder => exact ⟨hfolder, map_eq_error.1 h⟩
  · split at h <;> cases h

theorem nodup_of_searchEntry (h : d.searchEntry extension search root n = .ok part)
    (hsearch : d.isFolder (root.join ⟨n⟩) = true →
      ∀ found, search (root.join ⟨n⟩) = .ok found → found.Nodup) : part.Nodup := by
  unfold searchEntry at h
  dsimp only at h
  split at h
  · next hfolder =>
    obtain ⟨found, hfound, rfl⟩ := map_eq_ok.1 h
    exact (hsearch hfolder found hfound).map List.cons_injective
  · split at h <;> cases h <;> simp

end

section

variable {depth level : Nat} {found : List (List Text)} {cause : Text}

theorem list_of_eq_none {p : Path} (htakes : d.Takes p) (hl : d.LeadsToFolder p l)
    (hbreak : d.break? level l = none) : d.list level p = ⟨d.namesIn l, none⟩ := by
  rw [list, locate_eq_ok_iff.2 ⟨htakes, hl.leads⟩]
  simp only [hl.folder, hbreak]

theorem list_of_eq_some {p : Path} (htakes : d.Takes p) (hl : d.LeadsToFolder p l) {b : Break}
    (hbreak : d.break? level l = some b) :
    d.list level p = ⟨(d.namesIn l).take b.entries, some b.cause⟩ := by
  rw [list, locate_eq_ok_iff.2 ⟨htakes, hl.leads⟩]
  simp only [hl.folder, hbreak]

/-- **A folder that is searched with success can be listed to its end**, and what is found is what its
entries give. -/
theorem scriptsBelow_succ_eq_ok (htakes : d.Takes root) (hl : d.LeadsToFolder root l)
    (h : d.scriptsBelow extension (depth + 1) level root = .ok found) :
    d.break? level l = none ∧
      collect (d.searchEntry extension (d.scriptsBelow extension depth (level + 1)) root)
        (d.namesIn l) = .ok found := by
  rw [scriptsBelow] at h
  cases hbreak : d.break? level l with
  | none =>
    rw [list_of_eq_none htakes hl hbreak] at h
    refine ⟨rfl, ?_⟩
    dsimp only at h
    split at h
    · cases h
    · next hcollect => exact hcollect.trans h
  | some b =>
    rw [list_of_eq_some htakes hl hbreak] at h
    dsimp only at h
    split at h <;> cases h

theorem scriptsBelow_succ_eq_error (htakes : d.Takes root) (hl : d.LeadsToFolder root l)
    (h : d.scriptsBelow extension (depth + 1) level root = .error cause) :
    (∃ b, d.break? level l = some b ∧ b.cause = cause) ∨ ∃ n, d.FindsEntry root n ∧
      d.isFolder (root.join ⟨n⟩) = true ∧
        d.scriptsBelow extension depth (level + 1) (root.join ⟨n⟩) = .error cause := by
  have hentry {n : Text} (hn : n ∈ d.namesIn l)
      (he : d.searchEntry extension (d.scriptsBelow extension depth (level + 1)) root n =
        .error cause) : ∃ n, d.FindsEntry root n ∧ d.isFolder (root.join ⟨n⟩) = true ∧
          d.scriptsBelow extension depth (level + 1) (root.join ⟨n⟩) = .error cause :=
    ⟨n, (findsEntry_iff htakes hl).2 hn, searchEntry_eq_error he⟩
  rw [scriptsBelow] at h
  cases hbreak : d.break? level l with
  | none =>
    rw [list_of_eq_none htakes hl hbreak] at h
    dsimp only at h
    split at h
    · next hcollect =>
      cases h
      obtain ⟨n, hn, he⟩ := exists_of_collect_eq_error hcollect
      exact .inr (hentry hn he)
    · cases h
  | some b =>
    rw [list_of_eq_some htakes hl hbreak] at h
    dsimp only at h
    split at h
    · next hcollect =>
      cases h
      obtain ⟨n, hn, he⟩ := exists_of_collect_eq_error hcollect
      exact .inr (hentry (List.mem_of_mem_take hn) he)
    · cases h
      exact .inl ⟨b, rfl, rfl⟩

/-- **The search finds what is to be found**, as deep as it goes. -/
theorem mem_scriptsBelow (htakes : d.Takes root) (hl : d.LeadsToFolder root l)
    (h : d.scriptsBelow extension depth level root = .ok found) :
    names ∈ found ↔ names.length ≤ depth ∧ d.IsFound extension root names := by
  induction depth generalizing level root l names found with
  | zero =>
    cases h
    constructor
    · exact fun hmem => absurd hmem List.not_mem_nil
    · rintro ⟨hlength, hfound⟩
      exact absurd (List.length_eq_zero_iff.1 (Nat.le_zero.1 hlength)) hfound.ne_nil
  | succ depth ih =>
    obtain ⟨-, hcollect⟩ := scriptsBelow_succ_eq_ok htakes hl h
    obtain ⟨hall, hmem⟩ := mem_collect hcollect
    rw [hmem]
    constructor
    · rintro ⟨n, hn, part, hpart, hnames⟩
      obtain ⟨rest, rfl, hrest⟩ := ((searchEntry_eq_ok hpart).2 names).1 hnames
      rw [isFound_cons, findsEntry_iff htakes hl]
      split at hrest
      · next hfolder =>
        obtain ⟨found', hfound', hrest⟩ := hrest
        obtain ⟨htakes', l', hl'⟩ := isFolder_eq_true_iff.1 hfolder
        obtain ⟨hlength, hfound⟩ := (ih htakes' hl' hfound').1 hrest
        rw [if_pos hfolder]
        exact ⟨Nat.succ_le_succ hlength, hn, hfound⟩
      · next hfolder =>
        rw [if_neg hfolder]
        obtain ⟨rfl, hextension⟩ := hrest
        exact ⟨Nat.succ_le_succ (Nat.zero_le _), hn, rfl, hextension⟩
    · rintro ⟨hlength, hfound⟩
      obtain ⟨n, rest, rfl⟩ := List.exists_cons_of_ne_nil hfound.ne_nil
      rw [isFound_cons, findsEntry_iff htakes hl] at hfound
      obtain ⟨hn, hrest⟩ := hfound
      obtain ⟨part, hpart⟩ := hall n hn
      refine ⟨n, hn, part, hpart, ((searchEntry_eq_ok hpart).2 _).2 ⟨rest, rfl, ?_⟩⟩
      split at hrest
      · next hfolder =>
        obtain ⟨found', hfound'⟩ := (searchEntry_eq_ok hpart).1 hfolder
        obtain ⟨htakes', l', hl'⟩ := isFolder_eq_true_iff.1 hfolder
        rw [if_pos hfolder]
        exact ⟨found', hfound',
          (ih htakes' hl' hfound').2 ⟨Nat.le_of_succ_le_succ hlength, hrest⟩⟩
      · next hfolder =>
        rw [if_neg hfolder]
        exact hrest

theorem nodup_scriptsBelow (hd : d.IsTree) (htakes : d.Takes root) (hl : d.LeadsToFolder root l)
    (h : d.scriptsBelow extension depth level root = .ok found) : found.Nodup := by
  induction depth generalizing level root l found with
  | zero =>
    cases h
    exact .nil
  | succ depth ih =>
    obtain ⟨-, hcollect⟩ := scriptsBelow_succ_eq_ok htakes hl h
    refine nodup_collect List.head? hcollect (hd.nodup_namesIn l) ?_ ?_
    · intro n part hpart
      refine nodup_of_searchEntry hpart fun hfolder found' hfound' => ?_
      obtain ⟨htakes', l', hl'⟩ := isFolder_eq_true_iff.1 hfolder
      exact ih htakes' hl' hfound'
    · intro n part hpart names hnames
      obtain ⟨rest, rfl, -⟩ := ((searchEntry_eq_ok hpart).2 names).1 hnames
      rfl

/-- **A search that succeeds has listed all folders that it came to.** -/
theorem break?_of_scriptsBelow (h : d.scriptsBelow extension depth level root = .ok found)
    (hsearched : d.IsSearched root names l) (hlength : names.length < depth) :
    d.break? (level + names.length) l = none := by
  induction names generalizing depth level root found with
  | nil =>
    obtain ⟨depth, rfl⟩ := Nat.exists_eq_add_one_of_ne_zero (Nat.ne_of_gt hlength)
    obtain ⟨htakes, hl⟩ := isSearched_nil.1 hsearched
    exact (scriptsBelow_succ_eq_ok htakes hl h).1
  | cons n names ih =>
    obtain ⟨depth, rfl⟩ := Nat.exists_eq_add_one_of_ne_zero (Nat.ne_of_gt (Nat.zero_lt_of_lt hlength))
    obtain ⟨hentry, hrest⟩ := isSearched_cons.1 hsearched
    obtain ⟨htakes, l', hl', -⟩ := id hentry
    obtain ⟨-, hcollect⟩ := scriptsBelow_succ_eq_ok htakes hl' h
    obtain ⟨part, hpart⟩ := (mem_collect hcollect).1 n ((findsEntry_iff htakes hl').1 hentry)
    obtain ⟨found', hfound'⟩ := (searchEntry_eq_ok hpart).1 hrest.isFolder_root
    have hbreak := ih hfound' hrest (Nat.lt_of_succ_lt_succ hlength)
    rwa [Nat.add_right_comm] at hbreak

/-- **A search that fails came to a folder that cannot be listed.** -/
theorem exists_break_of_scriptsBelow (htakes : d.Takes root) (hl : d.LeadsToFolder root l)
    (h : d.scriptsBelow extension depth level root = .error cause) :
    ∃ names m b, d.IsSearched root names m ∧ d.break? (level + names.length) m = some b ∧
      b.cause = cause := by
  induction depth generalizing level root l with
  | zero => cases h
  | succ depth ih =>
    rcases scriptsBelow_succ_eq_error htakes hl h with ⟨b, hb, hcause⟩ | ⟨n, hentry, hfolder, hn⟩
    · exact ⟨[], l, b, isSearched_nil.2 ⟨htakes, hl⟩, hb, hcause⟩
    · obtain ⟨htakes', l', hl'⟩ := isFolder_eq_true_iff.1 hfolder
      obtain ⟨names, m, b, hsearched, hb, hcause⟩ := ih htakes' hl' hn
      refine ⟨n :: names, m, b, isSearched_cons.2 ⟨hentry, hsearched⟩, ?_, hcause⟩
      rwa [List.length_cons, ← Nat.add_assoc, Nat.add_right_comm]

end

/-! ## Sorting -/

theorem pairwise_lt_mergeSort {xs : List (List Text)} (h : xs.Nodup) :
    (xs.mergeSort fun a b => !decide (b < a)).Pairwise (· < ·) := by
  have hsorted : (xs.mergeSort fun a b => !decide (b < a)).Pairwise fun a b => !decide (b < a) := by
    apply List.pairwise_mergeSort
    · intro a b c hab hbc
      simp only [Bool.not_eq_true', decide_eq_false_iff_not, not_lt] at hab hbc ⊢
      exact hab.trans hbc
    · intro a b
      simpa using le_total a b
  have hnodup : (xs.mergeSort fun a b => !decide (b < a)).Nodup :=
    (List.mergeSort_perm _ _).nodup_iff.2 h
  refine (hsorted.and hnodup).imp ?_
  rintro a b ⟨hle, hne⟩
  simp only [Bool.not_eq_true', decide_eq_false_iff_not, not_lt] at hle
  exact lt_of_le_of_ne hle hne

theorem eq_of_ascending {xs ys : List (List Text)} (hxs : xs.Pairwise (· < ·))
    (hys : ys.Pairwise (· < ·)) (h : ∀ names, names ∈ xs ↔ names ∈ ys) : xs = ys := by
  have hperm : xs.Perm ys :=
    (List.perm_ext_iff_of_nodup (hxs.imp ne_of_lt) (hys.imp ne_of_lt)).2 h
  exact hperm.eq_of_pairwise (fun _ _ _ _ hlt hlt' => absurd hlt' hlt.asymm) hxs hys

section

variable {found : List (List Text)} {cause : Text}

theorem scripts_eq_ok (h : d.scripts extension root = .ok found) :
    (d.isFolder root = false ∧ found = []) ∨ ∃ l found', d.Takes root ∧ d.LeadsToFolder root l ∧
      d.scriptsBelow extension d.depthBound 1 root = .ok found' ∧
        found = found'.mergeSort fun a b => !decide (b < a) := by
  unfold scripts at h
  split at h
  · next hfolder =>
    obtain ⟨htakes, l, hl⟩ := isFolder_eq_true_iff.1 hfolder
    obtain ⟨found', hbelow, rfl⟩ := map_eq_ok.1 h
    exact .inr ⟨l, found', htakes, hl, hbelow, rfl⟩
  · next hfolder =>
    cases h
    exact .inl ⟨Bool.not_eq_true _ ▸ hfolder, rfl⟩

/-- **The scripts of a project are what is found.** -/
theorem mem_scripts (hd : d.IsTree) (h : d.scripts extension root = .ok found) :
    names ∈ found ↔ d.IsFound extension root names := by
  rcases scripts_eq_ok h with ⟨hroot, rfl⟩ | ⟨l, found', htakes, hl, hbelow, rfl⟩
  · constructor
    · exact fun hmem => absurd hmem List.not_mem_nil
    · intro hfound
      rw [hfound.isFolder_root] at hroot
      cases hroot
  · rw [(List.mergeSort_perm _ _).mem_iff, mem_scriptsBelow htakes hl hbelow]
    exact ⟨And.right, fun hfound => ⟨hfound.length_le hd, hfound⟩⟩

/-- **They are sorted by the names that lead there**, none of them twice. -/
theorem sorted_scripts (hd : d.IsTree) (h : d.scripts extension root = .ok found) :
    found.Pairwise (· < ·) := by
  rcases scripts_eq_ok h with ⟨-, rfl⟩ | ⟨l, found', htakes, hl, hbelow, rfl⟩
  · exact .nil
  · exact pairwise_lt_mergeSort (nodup_scriptsBelow hd htakes hl hbelow)

theorem exists_break_of_scripts (h : d.scripts extension root = .error cause) :
    ∃ names l b, d.IsSearched root names l ∧ d.break? (names.length + 1) l = some b ∧
      b.cause = cause := by
  unfold scripts at h
  split at h
  · next hfolder =>
    obtain ⟨htakes, l, hl⟩ := isFolder_eq_true_iff.1 hfolder
    obtain ⟨names, m, b, hsearched, hb, hcause⟩ :=
      exists_break_of_scriptsBelow htakes hl (map_eq_error.1 h)
    rw [Nat.add_comm] at hb
    exact ⟨names, m, b, hsearched, hb, hcause⟩
  · cases h

/-- **The search succeeds if all folders that it comes to can be listed.** -/
theorem exists_scripts_iff (hd : d.IsTree) (extension : Text) (root : Path) :
    (∃ found, d.scripts extension root = .ok found) ↔ d.IsListable root := by
  constructor
  · rintro ⟨found, h⟩ names l hsearched
    rcases scripts_eq_ok h with ⟨hroot, -⟩ | ⟨-, found', -, -, hbelow, -⟩
    · rw [hsearched.isFolder_root] at hroot
      cases hroot
    · rw [Nat.add_comm]
      exact break?_of_scriptsBelow hbelow hsearched (hsearched.length_lt hd)
  · intro hlistable
    cases h : d.scripts extension root with
    | ok found => exact ⟨found, rfl⟩
    | error cause =>
      obtain ⟨names, l, b, hsearched, hb, -⟩ := exists_break_of_scripts h
      rw [hlistable names l hsearched] at hb
      cases hb

end

end ScriptLexer.Disk
