import ScriptLexer.Files.Disk.Build
import ScriptLexer.Proofs.Disk.Walk

/-!
# Building keeps disks trees

Whatever nodes are put on a disk, in whatever order and through whatever links, it stays a tree
(`isTree_ofList`).

**The invariant** (`Disk.IsBuilt`). The disk is a tree, and the targets of its links have no NUL
character. The second part is needed because a file can be written through a link whose target does
not exist yet: then the name of the new file comes from the target.

**One write** (`IsBuilt.set`) adds an entry to a folder, or gives a file or a link a new node; a
folder stays a folder. Where a piece is placed is such a location (`IsBuilt.isPlace_of_walks`).
-/

namespace ScriptLexer.Disk

/-- A tree whose links have targets that paths can spell. -/
structure IsBuilt (d : Disk) : Prop where
  tree : d.IsTree
  targets : ∀ e ∈ d.nodes, ∀ target, e.2 = .link target → '\x00' ∉ target

/-- The location is that of an entry of a folder, or could be. -/
def IsPlace (d : Disk) (m : Location) : Prop :=
  ∃ l n, m = l ++ [n] ∧ d.node? l = some .folder ∧ IsEntryName n

/-- A piece that can be a name. -/
def IsClean (piece : Text) : Prop := '/' ∉ piece ∧ '\x00' ∉ piece

theorem isClean_of_mem_pieces {t piece : Text} (ht : '\x00' ∉ t) (h : piece ∈ Path.pieces t) :
    IsClean piece := by
  refine ⟨Path.slash_notMem_of_mem_pieces h, fun hnul => ht ?_⟩
  exact (Path.mem_iff_exists_piece (by decide) t).2 ⟨piece, h, hnul⟩

/-! ## One write -/

variable {d d' : Disk} {l m : Location} {x : Node}

theorem mem_nodes_set {e : Location × Node} (h : e ∈ (d.set l x).nodes) :
    e = (l, x) ∨ e ∈ d.nodes := by
  unfold set at h
  split at h
  · obtain ⟨e', he', rfl⟩ := List.mem_map.1 h
    split
    · exact .inl rfl
    · exact .inr he'
  · rcases List.mem_append.1 h with h | h
    · exact .inr h
    · exact .inl (List.mem_singleton.1 h)

theorem nodup_set (hd : d.IsTree) (hl : l ≠ []) :
    ((d.set l x).nodes.map Prod.fst).Nodup := by
  unfold set
  split
  · have hsame :
        Prod.fst ∘ (fun e : Location × Node => if e.1 = l then (l, x) else e) = Prod.fst := by
      funext e
      by_cases he : e.1 = l <;> simp [he]
    rw [List.map_map, hsame]
    exact hd.distinct
  · next hnone =>
    rw [List.map_append, List.nodup_append]
    refine ⟨hd.distinct, List.nodup_singleton l, ?_⟩
    rintro k hk _ hl' rfl
    obtain rfl := List.mem_singleton.1 hl'
    obtain ⟨⟨_, y⟩, hmem, rfl⟩ := List.mem_map.1 hk
    exact hnone ((isSome_node?_iff hl).2 ⟨y, hmem⟩)

namespace IsBuilt

theorem nil_or_isPlace (h : d.IsBuilt) (hx : d.node? m = some x) : m = [] ∨ d.IsPlace m := by
  rcases List.eq_nil_or_concat' m with hm | ⟨l, n, rfl⟩
  · exact .inl hm
  · exact .inr ⟨l, n, rfl, h.tree.folder_of_append (List.cons_ne_nil n []) hx,
      h.tree.isEntryName_of_mem hx (by simp)⟩

/-- **A write keeps the tree**, if no folder becomes anything else. -/
theorem set (h : d.IsBuilt) (hm : d.IsPlace m) (hfolder : d.node? m = some .folder → x = .folder)
    (htarget : ∀ target, x = .link target → '\x00' ∉ target) : (d.set m x).IsBuilt := by
  obtain ⟨l, n, rfl, hl, hn⟩ := hm
  have hne : l ++ [n] ≠ [] := by simp
  have hkeep {k : Location} (hk : d.node? k = some .folder) :
      (d.set (l ++ [n]) x).node? k = some .folder := by
    rw [node?_set hne]
    split
    · next he => rw [hfolder (he ▸ hk)]
    · exact hk
  refine ⟨⟨nodup_set h.tree hne, ?_, ?_, ?_⟩, ?_⟩
  · intro e he k hk
    rcases mem_nodes_set he with rfl | he
    · rcases List.mem_append.1 hk with hk | hk
      · exact h.tree.isEntryName_of_mem hl hk
      · rwa [List.mem_singleton.1 hk]
    · exact h.tree.names e he k hk
  · intro e he
    rcases mem_nodes_set he with rfl | he
    · apply hkeep
      rwa [List.dropLast_concat]
    · exact hkeep (h.tree.parents e he)
  · have hworking : (d.set (l ++ [n]) x).working = d.working := by
      unfold Disk.set
      split <;> rfl
    rw [hworking]
    exact hkeep h.tree.working
  · intro e he target htarget'
    rcases mem_nodes_set he with rfl | he
    · exact htarget target htarget'
    · exact h.targets e he target htarget'

/-- **A walk ends at the root or at a place for a node.** -/
theorem isPlace_of_walks (h : d.IsBuilt) {j : Nat} {ps : List Text}
    (hwalks : d.Walks j l ps m) (hl : (d.node? l).isSome = true) (hps : ∀ p ∈ ps, IsClean p) :
    m = [] ∨ d.IsPlace m := by
  induction hwalks with
  | nil =>
    obtain ⟨y, hy⟩ := Option.isSome_iff_exists.1 hl
    exact h.nil_or_isPlace hy
  | stay _ _ _ ih => exact ih hl fun p hp => hps p (List.mem_cons_of_mem _ hp)
  | @up _ l _ _ _ _ _ _ ih =>
    refine ih ?_ fun p hp => hps p (List.mem_cons_of_mem _ hp)
    obtain ⟨y, hy⟩ := Option.isSome_iff_exists.1 hl
    rcases h.nil_or_isPlace hy with rfl | ⟨l, n, rfl, hfolder, -⟩
    · exact hl
    · rw [List.dropLast_concat, hfolder]
      rfl
  | enter _ _ _ hx _ _ ih =>
    exact ih (hx ▸ rfl) fun p hp => hps p (List.mem_cons_of_mem _ hp)
  | @follow _ _ _ _ target _ hfolder _ _ hx _ ih =>
    apply ih
    · unfold startOf
      split
      · rfl
      · exact hl
    · intro p hp
      rcases List.mem_append.1 hp with hp | hp
      · have hmem := mem_nodes_of_node? (by simp) hx
        exact isClean_of_mem_pieces (h.targets _ hmem target rfl) hp
      · exact hps p (List.mem_cons_of_mem _ hp)
  | @missing l n hfolder hn hsize _ =>
    obtain ⟨hslash, hnul⟩ := hps n List.mem_cons_self
    exact .inr ⟨l, n, rfl, hfolder, hn, hslash, hnul, hsize⟩

/-! ## A whole path -/

/-- **Placing a node keeps the invariant.** -/
theorem place (h : d.IsBuilt) {piece : Text} (hpiece : IsClean piece)
    (htarget : ∀ target, x = .link target → '\x00' ∉ target) (hd' : d.place l piece x = .ok d') :
    d'.IsBuilt := by
  unfold Disk.place at hd'
  split at hd'
  · cases hd'
  next m hm =>
  obtain ⟨j, -, hwalks⟩ := walk_eq_ok_iff.1 hm
  have hl : (d.node? l).isSome = true := hwalks.folder (List.cons_ne_nil piece []) ▸ rfl
  have hset (hnode : d.node? m ≠ some .folder) : (d.set m x).IsBuilt := by
    rcases h.isPlace_of_walks hwalks hl (by simpa using hpiece) with rfl | hplace
    · exact absurd rfl hnode
    · exact h.set hplace (fun he => absurd he hnode) htarget
  split at hd'
  · next hnone =>
    cases hd'
    exact hset (by simp [hnone])
  · next hnone _ =>
    split at hd'
    · cases hd'
      exact hset (by simp [hnone])
    · cases hd'
  · cases hd'
    exact h
  · cases hd'
  · next hfile =>
    cases hd'
    exact hset (by simp [hfile])
  · cases hd'

theorem makeFolders (h : d.IsBuilt) {ps : List Text} (hps : ∀ p ∈ ps, IsClean p)
    (hd' : d.makeFolders l ps = .ok (d', m)) : d'.IsBuilt := by
  induction ps generalizing d l with
  | nil =>
    cases hd'
    exact h
  | cons p ps ih =>
    rw [Disk.makeFolders] at hd'
    split at hd'
    · cases hd'
    next d₁ hd₁ =>
    split at hd'
    · cases hd'
    next l₁ hl₁ =>
    have h₁ : d₁.IsBuilt := h.place (hps p List.mem_cons_self) (fun _ he => by cases he) hd₁
    exact ih h₁ (fun q hq => hps q (List.mem_cons_of_mem p hq)) hd'

theorem put (h : d.IsBuilt) {p : Path} (hp : '\x00' ∉ p.text)
    (htarget : ∀ target, x = .link target → '\x00' ∉ target) (hd' : d.put p x = .ok d') :
    d'.IsBuilt := by
  unfold Disk.put at hd'
  simp only at hd'
  split at hd'
  · cases hd'
  next d₁ l₁ hd₁ =>
  have h₁ : d₁.IsBuilt :=
    h.makeFolders (fun q hq => isClean_of_mem_pieces hp (List.dropLast_subset _ hq)) hd₁
  refine h₁.place (isClean_of_mem_pieces hp ?_) htarget hd'
  rw [List.getLastD_eq_getLast?, List.getLast?_eq_some_getLast (Path.pieces_ne_nil _)]
  exact List.getLast_mem _

end IsBuilt

/-! ## A whole disk -/

theorem isBuilt_empty {working : Location} (h : ∀ n ∈ working, IsEntryName n) :
    (empty working).IsBuilt := by
  have hmem {e : Location × Node} (he : e ∈ (empty working).nodes) :
      ∃ i < working.length, e = (working.take (i + 1), .folder) := by
    obtain ⟨i, hi, rfl⟩ := List.mem_map.1 he
    exact ⟨i, List.mem_range.1 hi, rfl⟩
  have hdistinct : ((empty working).nodes.map Prod.fst).Nodup := by
    rw [empty, List.map_map]
    refine List.Nodup.map_on ?_ List.nodup_range
    intro i hi j hj he
    have hlength := congrArg List.length he
    have hi := List.mem_range.1 hi
    have hj := List.mem_range.1 hj
    simp only [Function.comp_apply, List.length_take] at hlength
    omega
  have hfolder {i : Nat} (hi : i ≤ working.length) :
      (empty working).node? (working.take i) = some .folder := by
    cases i with
    | zero => rfl
    | succ i =>
      have hne : working.take (i + 1) ≠ [] := by
        have hlength : (working.take (i + 1)).length = i + 1 := by simp [hi]
        exact List.ne_nil_of_length_eq_add_one hlength
      apply node?_of_mem hdistinct hne
      exact List.mem_map.2 ⟨i, List.mem_range.2 hi, rfl⟩
  refine ⟨⟨hdistinct, ?_, ?_, ?_⟩, ?_⟩
  · intro e he n hn
    obtain ⟨i, -, rfl⟩ := hmem he
    exact h n (List.mem_of_mem_take hn)
  · intro e he
    obtain ⟨i, hi, rfl⟩ := hmem he
    have hdrop : (working.take (i + 1)).dropLast = working.take i := by
      rw [List.dropLast_eq_take, List.length_take, List.take_take]
      congr 1
      omega
    rw [hdrop]
    exact hfolder (Nat.le_of_lt hi)
  · have hall := hfolder (Nat.le_refl working.length)
    rwa [List.take_length] at hall
  · intro e he target htarget
    obtain ⟨i, -, rfl⟩ := hmem he
    cases htarget

theorem IsBuilt.putAll (h : d.IsBuilt) {entries : List (Path × Node)}
    (hpaths : ∀ e ∈ entries, '\x00' ∉ e.1.text)
    (htargets : ∀ e ∈ entries, ∀ target, e.2 = .link target → '\x00' ∉ target) :
    (d.putAll entries).IsBuilt := by
  induction entries generalizing d with
  | nil => exact h
  | cons e entries ih =>
    have hstep : ((d.put e.1 e.2).toOption.getD d).IsBuilt := by
      cases hput : d.put e.1 e.2 with
      | error _ => exact h
      | ok d' => exact h.put (hpaths e List.mem_cons_self) (htargets e List.mem_cons_self) hput
    exact ih hstep (fun e' he' => hpaths e' (List.mem_cons_of_mem e he'))
      fun e' he' => htargets e' (List.mem_cons_of_mem e he')

/-- **Every disk that is built from paths is a tree.** -/
theorem isTree_ofList {working : Location} (hworking : ∀ n ∈ working, IsEntryName n)
    {entries : List (Path × Node)} (hpaths : ∀ e ∈ entries, '\x00' ∉ e.1.text)
    (htargets : ∀ e ∈ entries, ∀ target, e.2 = .link target → '\x00' ∉ target) :
    (ofList working entries).IsTree :=
  ((isBuilt_empty hworking).putAll hpaths htargets).tree

end ScriptLexer.Disk
