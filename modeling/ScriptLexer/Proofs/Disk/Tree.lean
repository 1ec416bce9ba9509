import Mathlib.Data.List.Induction
import Mathlib.Data.List.Nodup
import ScriptLexer.Files.Disk.Content
import ScriptLexer.Proofs.Path.Components

/-!
# Trees on a disk

`Disk.IsTree` says that the nodes of a disk form a tree: no two of them are at one location, each
has a folder around it, and all names are such that a path can spell them. So whatever is at a
location, folders lead to it (`IsTree.folder_of_append`).

The order of the nodes is the order in which folders list their entries; it does not matter where
they are (`node?_eq_of_perm`).
-/

namespace ScriptLexer

/-- A name that an entry of a folder can have. -/
structure IsEntryName (n : Text) : Prop where
  isName : Path.IsName n
  slash : '/' ∉ n
  nul : '\x00' ∉ n
  size : Utf8.size n ≤ Disk.nameLimit

instance (n : Text) : Decidable (IsEntryName n) :=
  decidable_of_iff (Path.IsName n ∧ '/' ∉ n ∧ '\x00' ∉ n ∧ Utf8.size n ≤ Disk.nameLimit)
    ⟨fun ⟨h₁, h₂, h₃, h₄⟩ => ⟨h₁, h₂, h₃, h₄⟩, fun ⟨h₁, h₂, h₃, h₄⟩ => ⟨h₁, h₂, h₃, h₄⟩⟩

namespace Disk

/-- The nodes form a tree with names that paths can spell, and the working folder is one of it. -/
structure IsTree (d : Disk) : Prop where
  distinct : (d.nodes.map Prod.fst).Nodup
  names : ∀ e ∈ d.nodes, ∀ n ∈ e.1, IsEntryName n
  parents : ∀ e ∈ d.nodes, d.node? e.1.dropLast = some .folder
  working : d.node? d.working = some .folder

instance (d : Disk) : Decidable d.IsTree :=
  decidable_of_iff ((d.nodes.map Prod.fst).Nodup ∧ (∀ e ∈ d.nodes, ∀ n ∈ e.1, IsEntryName n) ∧
      (∀ e ∈ d.nodes, d.node? e.1.dropLast = some .folder) ∧ d.node? d.working = some .folder)
    ⟨fun ⟨h₁, h₂, h₃, h₄⟩ => ⟨h₁, h₂, h₃, h₄⟩, fun ⟨h₁, h₂, h₃, h₄⟩ => ⟨h₁, h₂, h₃, h₄⟩⟩

/-! ## Nodes and their locations -/

theorem mem_nodes_of_node? {d : Disk} {l : Location} {x : Node} (hl : l ≠ [])
    (h : d.node? l = some x) : (l, x) ∈ d.nodes := by
  rw [node?, if_neg hl] at h
  obtain ⟨front, back, hnodes, -⟩ := List.lookup_eq_some_iff.1 h
  rw [hnodes]
  exact List.mem_append_right _ List.mem_cons_self

theorem isSome_node?_iff {d : Disk} {l : Location} (hl : l ≠ []) :
    (d.node? l).isSome = true ↔ ∃ x, (l, x) ∈ d.nodes := by
  constructor
  · intro h
    obtain ⟨x, hx⟩ := Option.isSome_iff_exists.1 h
    exact ⟨x, mem_nodes_of_node? hl hx⟩
  · rintro ⟨x, hx⟩
    rw [node?, if_neg hl]
    cases hlookup : d.nodes.lookup l with
    | some y => rfl
    | none => simpa using List.lookup_eq_none_iff.1 hlookup _ hx

theorem node?_of_mem {d : Disk} (hdistinct : (d.nodes.map Prod.fst).Nodup) {l : Location}
    {x : Node} (hl : l ≠ []) (hx : (l, x) ∈ d.nodes) : d.node? l = some x := by
  obtain ⟨y, hy⟩ := Option.isSome_iff_exists.1 ((isSome_node?_iff hl).2 ⟨x, hx⟩)
  have hmem := mem_nodes_of_node? hl hy
  have heq : (l, y) = (l, x) := List.inj_on_of_nodup_map hdistinct hmem hx rfl
  rw [hy, (Prod.mk.inj heq).2]

/-- **Where nodes are does not depend on the order in which folders list them.** -/
theorem node?_eq_of_perm {d d' : Disk} (hdistinct : (d.nodes.map Prod.fst).Nodup)
    (hperm : d'.nodes.Perm d.nodes) (l : Location) : d'.node? l = d.node? l := by
  have hdistinct' : (d'.nodes.map Prod.fst).Nodup := (hperm.map _).nodup_iff.2 hdistinct
  by_cases hl : l = []
  · rw [node?, node?, if_pos hl, if_pos hl]
  · cases hx : d.node? l with
    | some x => exact node?_of_mem hdistinct' hl (hperm.mem_iff.2 (mem_nodes_of_node? hl hx))
    | none =>
      cases hy : d'.node? l with
      | none => rfl
      | some y =>
        have hmem := hperm.mem_iff.1 (mem_nodes_of_node? hl hy)
        rw [node?_of_mem hdistinct hl hmem] at hx
        cases hx

namespace IsTree

variable {d : Disk} (h : d.IsTree)

include h

theorem isEntryName_of_mem {l : Location} {x : Node} {n : Text} (hx : d.node? l = some x)
    (hn : n ∈ l) : IsEntryName n :=
  h.names _ (mem_nodes_of_node? (List.ne_nil_of_mem hn) hx) n hn

/-- **Folders lead to every node.** -/
theorem folder_of_append {l names : Location} {x : Node} (hnames : names ≠ [])
    (hx : d.node? (l ++ names) = some x) : d.node? l = some .folder := by
  induction names using List.reverseRecOn generalizing x with
  | nil => exact absurd rfl hnames
  | append_singleton names n ih =>
    have hmem : (l ++ names ++ [n], x) ∈ d.nodes := by
      rw [← List.append_assoc] at hx
      exact mem_nodes_of_node? (by simp) hx
    have hfolder : d.node? (l ++ names) = some .folder := by
      simpa using h.parents _ hmem
    by_cases hnil : names = []
    · subst hnil
      simpa using hfolder
    · exact ih hnil hfolder

theorem of_perm {nodes : List (Location × Node)} (hperm : nodes.Perm d.nodes) :
    ({ d with nodes := nodes } : Disk).IsTree := by
  have hnode (l : Location) : ({ d with nodes := nodes } : Disk).node? l = d.node? l :=
    node?_eq_of_perm h.distinct hperm l
  refine ⟨(hperm.map _).nodup_iff.2 h.distinct, ?_, ?_, ?_⟩
  · exact fun e he => h.names e (hperm.mem_iff.1 he)
  · intro e he
    rw [hnode]
    exact h.parents e (hperm.mem_iff.1 he)
  · rw [hnode]
    exact h.working

end IsTree

/-! ## What a folder lists -/

/-- The last name of a location in the folder `l`. -/
def nameIn? (l k : Location) : Option Text := if k.dropLast = l then k.getLast? else none

theorem nameIn?_eq_some_iff {l k : Location} {n : Text} : nameIn? l k = some n ↔ k = l ++ [n] := by
  unfold nameIn?
  constructor
  · intro hk
    split at hk
    · next hl =>
      obtain ⟨k', rfl⟩ := List.getLast?_eq_some_iff.1 hk
      rw [List.dropLast_concat] at hl
      rw [hl]
    · cases hk
  · rintro rfl
    simp

theorem namesIn_eq (d : Disk) (l : Location) :
    d.namesIn l = (d.nodes.map Prod.fst).filterMap (nameIn? l) := by
  rw [List.filterMap_map]
  rfl

/-- **A folder lists the names of the nodes in it.** -/
theorem mem_namesIn {d : Disk} {l : Location} {n : Text} :
    n ∈ d.namesIn l ↔ (d.node? (l ++ [n])).isSome = true := by
  have hne : l ++ [n] ≠ [] := by simp
  rw [namesIn_eq, isSome_node?_iff hne]
  simp only [List.mem_filterMap, nameIn?_eq_some_iff, exists_eq_right, List.mem_map]
  simp

theorem IsTree.nodup_namesIn {d : Disk} (h : d.IsTree) (l : Location) : (d.namesIn l).Nodup := by
  rw [namesIn_eq]
  apply h.distinct.filterMap
  intro k k' n hk hk'
  rw [Option.mem_def, nameIn?_eq_some_iff] at hk hk'
  rw [hk, hk']

end Disk

end ScriptLexer
