import Mathlib.Data.List.MinMax
import ScriptLexer.Proofs.Disk.Tree

/-!
# Walks

`Disk.Walks d j l ps m`: from the location `l`, the pieces `ps` lead to `m`, and `j` links are
followed on the way. It is `Disk.walk` as a relation, which knows no limit: a walk that may follow
`k` links is one that follows at most `k` (`walk_eq_ok_iff`).

* Pieces behind others are walked from where those lead to (`walks_append_iff`).
* Pieces that stand for nothing can be left out, and put in where folders are (`Walks.steps`,
  `walks_of_steps`).
* Where there is no link, names lead down the tree (`Walks.eq_append`, `IsTree.walks_of_node?`).
* Between two links a walk along names only descends, so it has at most as many names as its links
  and the height of the tree allow (`Walks.length_add_le`).
-/

namespace ScriptLexer.Disk

/-- The pieces lead from one location to another, over so many links. -/
inductive Walks (d : Disk) : Nat → Location → List Text → Location → Prop
  | nil {l : Location} : Walks d 0 l [] l
  /-- The piece stands for nothing. -/
  | stay {j : Nat} {l m : Location} {piece : Text} {rest : List Text} :
      d.node? l = some .folder → Path.component? piece = none → Walks d j l rest m →
      Walks d j l (piece :: rest) m
  | up {j : Nat} {l m : Location} {piece : Text} {rest : List Text} :
      d.node? l = some .folder → Path.component? piece = some .up →
      Walks d j l.dropLast rest m → Walks d j l (piece :: rest) m
  /-- The name is that of a file or a folder. -/
  | enter {j : Nat} {l m : Location} {n : Text} {rest : List Text} {x : Node} :
      d.node? l = some .folder → Path.IsName n → Utf8.size n ≤ nameLimit →
      d.node? (l ++ [n]) = some x → (∀ target, x ≠ .link target) →
      Walks d j (l ++ [n]) rest m → Walks d j l (n :: rest) m
  /-- The name is that of a link. -/
  | follow {j : Nat} {l m : Location} {n target : Text} {rest : List Text} :
      d.node? l = some .folder → Path.IsName n → Utf8.size n ≤ nameLimit →
      d.node? (l ++ [n]) = some (.link target) →
      Walks d j (startOf target l) (Path.pieces target ++ rest) m → Walks d (j + 1) l (n :: rest) m
  /-- The last name names nothing. -/
  | missing {l : Location} {n : Text} :
      d.node? l = some .folder → Path.IsName n → Utf8.size n ≤ nameLimit →
      d.node? (l ++ [n]) = none → Walks d 0 l [n] (l ++ [n])

variable {d : Disk} {j k : Nat} {l m : Location} {ps qs : List Text}

/-! ## The walk as a function -/

/-- How a walk goes on behind a link, when so many links may be followed. -/
def followed (d : Disk) : Nat → Location → Text → List Text → Except DiskError Location
  | 0 => fun _ _ _ => .error .tooManyLinks
  | links + 1 => fun l target rest =>
      d.walk links (startOf target l) (Path.pieces target ++ rest)

theorem walk_eq (d : Disk) (k : Nat) : d.walk k = d.walkWith (d.followed k) := by
  cases k <;> rfl

theorem walk_name {n : Text} {rest : List Text} (hl : d.node? l = some .folder)
    (hn : Path.IsName n) (hsize : Utf8.size n ≤ nameLimit) :
    d.walk k l (n :: rest) =
      match d.node? (l ++ [n]) with
      | none => if rest = [] then .ok (l ++ [n]) else .error .noEntry
      | some (.link target) => d.followed k l target rest
      | some _ => d.walk k (l ++ [n]) rest := by
  have hcomponent : Path.component? n = some (.name n) := hn
  have hlong : ¬nameLimit < Utf8.size n := Nat.not_lt.2 hsize
  rw [walk_eq, walkWith, if_neg (by simp [hl])]
  cases hx : d.node? (l ++ [n]) with
  | none => simp [hcomponent, hlong, hx]
  | some x => cases x <;> simp [hcomponent, hlong, hx]

theorem Walks.walk_eq (h : d.Walks j l ps m) (hk : j ≤ k) : d.walk k l ps = .ok m := by
  induction h generalizing k with
  | nil => rw [Disk.walk_eq, walkWith]
  | stay hl hp _ ih =>
    have hrest := ih hk
    rw [Disk.walk_eq] at hrest ⊢
    simp [walkWith, hl, hp, hrest]
  | up hl hp _ ih =>
    have hrest := ih hk
    rw [Disk.walk_eq] at hrest ⊢
    simp [walkWith, hl, hp, hrest]
  | @enter _ _ _ _ _ x hl hn hsize hx hlink _ ih =>
    rw [walk_name hl hn hsize, hx]
    cases x with
    | link target => exact absurd rfl (hlink target)
    | _ => exact ih hk
  | follow hl hn hsize hx _ ih =>
    obtain ⟨k, rfl⟩ := Nat.exists_eq_add_of_le' (Nat.le_of_add_left_le hk)
    rw [walk_name hl hn hsize, hx]
    exact ih (Nat.le_of_succ_le_succ hk)
  | missing hl hn hsize hx =>
    rw [walk_name hl hn hsize, hx]
    rfl

/-- One step of the function is one step of the relation. -/
theorem exists_walks_of_walkWith
    (hfollow : ∀ l target rest, d.followed k l target rest = .ok m →
      ∃ j, j + 1 ≤ k ∧ d.Walks j (startOf target l) (Path.pieces target ++ rest) m)
    (h : d.walkWith (d.followed k) l ps = .ok m) : ∃ j, j ≤ k ∧ d.Walks j l ps m := by
  induction ps generalizing l with
  | nil =>
    rw [walkWith] at h
    cases h
    exact ⟨0, Nat.zero_le k, .nil⟩
  | cons piece rest ih =>
    rw [walkWith] at h
    split at h
    · cases h
    next hl =>
    have hl : d.node? l = some .folder := by simpa using hl
    split at h
    · next hp =>
      obtain ⟨j, hj, hrest⟩ := ih h
      exact ⟨j, hj, .up hl hp hrest⟩
    · next n hp =>
      obtain ⟨rfl, hn⟩ := Path.component?_eq_name hp
      split at h
      · cases h
      next hsize =>
      have hsize : Utf8.size n ≤ nameLimit := Nat.not_lt.1 hsize
      split at h
      · next hx =>
        split at h
        · next hrest =>
          cases h
          subst hrest
          exact ⟨0, Nat.zero_le k, .missing hl hn hsize hx⟩
        · cases h
      · next target hx =>
        obtain ⟨j, hj, hwalk⟩ := hfollow _ _ _ h
        exact ⟨j + 1, hj, .follow hl hn hsize hx hwalk⟩
      · next x hlink hx =>
        obtain ⟨j, hj, hrest⟩ := ih h
        exact ⟨j, hj, .enter hl hn hsize hx (fun target he => hlink target he) hrest⟩
    · next hup hname =>
      obtain ⟨j, hj, hrest⟩ := ih h
      refine ⟨j, hj, .stay hl ?_ hrest⟩
      cases hp : Path.component? piece with
      | none => rfl
      | some c =>
        cases c with
        | root => exact absurd hp (Path.component?_ne_root piece)
        | here => exact absurd hp (Path.component?_ne_here piece)
        | up => exact absurd hp hup
        | name n => exact absurd hp (hname n)

/-- **The relation is the walk**, up to the limit on links. -/
theorem walk_eq_ok_iff : d.walk k l ps = .ok m ↔ ∃ j, j ≤ k ∧ d.Walks j l ps m := by
  constructor
  · intro h
    induction k generalizing l ps with
    | zero =>
      rw [walk_eq] at h
      refine exists_walks_of_walkWith (fun _ _ _ he => ?_) h
      cases he
    | succ k ih =>
      rw [walk_eq] at h
      refine exists_walks_of_walkWith (fun l target rest he => ?_) h
      obtain ⟨j, hj, hwalk⟩ := ih he
      exact ⟨j, Nat.succ_le_succ hj, hwalk⟩
  · rintro ⟨j, hj, h⟩
    exact h.walk_eq hj

/-- **A walk leads to one place, over one number of links.** -/
theorem Walks.unique {i : Nat} {m' : Location} (h : d.Walks j l ps m) (h' : d.Walks i l ps m') :
    j = i ∧ m = m' := by
  induction h generalizing i with
  | nil =>
    cases h'
    exact ⟨rfl, rfl⟩
  | stay _ hp _ ih =>
    cases h' with
    | stay _ _ h' => exact ih h'
    | up _ hp' => simp [hp] at hp'
    | enter _ hn => exact absurd (hp.symm.trans hn) (by simp)
    | follow _ hn => exact absurd (hp.symm.trans hn) (by simp)
    | missing _ hn => exact absurd (hp.symm.trans hn) (by simp)
  | up _ hp _ ih =>
    cases h' with
    | stay _ hp' => simp [hp] at hp'
    | up _ _ h' => exact ih h'
    | enter _ hn => exact absurd (hp.symm.trans hn) (by simp)
    | follow _ hn => exact absurd (hp.symm.trans hn) (by simp)
    | missing _ hn => exact absurd (hp.symm.trans hn) (by simp)
  | enter _ hn _ hx hlink _ ih =>
    cases h' with
    | stay _ hp => exact absurd (hn.symm.trans hp) (by simp)
    | up _ hp => exact absurd (hn.symm.trans hp) (by simp)
    | enter _ _ _ _ _ h' => exact ih h'
    | follow _ _ _ hx' => exact absurd (Option.some.inj (hx.symm.trans hx')) (hlink _)
    | missing _ _ _ hx' => simp [hx] at hx'
  | follow _ hn _ hx _ ih =>
    cases h' with
    | stay _ hp => exact absurd (hn.symm.trans hp) (by simp)
    | up _ hp => exact absurd (hn.symm.trans hp) (by simp)
    | enter _ _ _ hx' hlink => exact absurd (Option.some.inj (hx'.symm.trans hx)) (hlink _)
    | follow _ _ _ hx' h' =>
      obtain rfl := Node.link.inj (Option.some.inj (hx.symm.trans hx'))
      obtain ⟨rfl, rfl⟩ := ih h'
      exact ⟨rfl, rfl⟩
    | missing _ _ _ hx' => simp [hx] at hx'
  | missing _ hn _ hx =>
    cases h' with
    | stay _ hp => exact absurd (hn.symm.trans hp) (by simp)
    | up _ hp => exact absurd (hn.symm.trans hp) (by simp)
    | enter _ _ _ hx' => simp [hx] at hx'
    | follow _ _ _ hx' => simp [hx] at hx'
    | missing => exact ⟨rfl, rfl⟩

theorem walk_congr {d' : Disk} (h : ∀ l, d'.node? l = d.node? l) (k : Nat) :
    d'.walk k = d.walk k := by
  have hwith (follow : Location → Text → List Text → Except DiskError Location) :
      d'.walkWith follow = d.walkWith follow := by
    funext l ps
    induction ps generalizing l with
    | nil => rw [walkWith, walkWith]
    | cons piece rest ih => simp only [walkWith, h, ih]
  induction k with
  | zero => rw [walk, walk, hwith]
  | succ k ih => rw [walk, walk, hwith, ih]

theorem Walks.congr {d' : Disk} (h : d.Walks j l ps m) (hnode : ∀ l, d'.node? l = d.node? l) :
    d'.Walks j l ps m := by
  induction h with
  | nil => exact .nil
  | stay hl hp _ ih => exact .stay ((hnode _).trans hl) hp ih
  | up hl hp _ ih => exact .up ((hnode _).trans hl) hp ih
  | enter hl hn hsize hx hlink _ ih =>
    exact .enter ((hnode _).trans hl) hn hsize ((hnode _).trans hx) hlink ih
  | follow hl hn hsize hx _ ih =>
    exact .follow ((hnode _).trans hl) hn hsize ((hnode _).trans hx) ih
  | missing hl hn hsize hx => exact .missing ((hnode _).trans hl) hn hsize ((hnode _).trans hx)

/-! ## Pieces behind pieces -/

/-- **Pieces behind others are walked from where those lead to.** -/
theorem walks_append_iff :
    d.Walks j l (ps ++ qs) m ↔
      ∃ i i' m', i + i' = j ∧ d.Walks i l ps m' ∧ d.Walks i' m' qs m := by
  constructor
  · intro h
    generalize hpqs : ps ++ qs = pqs at h
    induction h generalizing ps with
    | nil =>
      obtain ⟨rfl, rfl⟩ := List.append_eq_nil_iff.1 hpqs
      exact ⟨0, 0, _, rfl, .nil, .nil⟩
    | stay hl hp hrest ih =>
      rcases List.append_eq_cons_iff.1 hpqs with ⟨rfl, rfl⟩ | ⟨ps, rfl, hrest'⟩
      · exact ⟨0, _, _, Nat.zero_add _, .nil, .stay hl hp hrest⟩
      · obtain ⟨i, i', m', hi, h₁, h₂⟩ := ih hrest'.symm
        exact ⟨i, i', m', hi, .stay hl hp h₁, h₂⟩
    | up hl hp hrest ih =>
      rcases List.append_eq_cons_iff.1 hpqs with ⟨rfl, rfl⟩ | ⟨ps, rfl, hrest'⟩
      · exact ⟨0, _, _, Nat.zero_add _, .nil, .up hl hp hrest⟩
      · obtain ⟨i, i', m', hi, h₁, h₂⟩ := ih hrest'.symm
        exact ⟨i, i', m', hi, .up hl hp h₁, h₂⟩
    | enter hl hn hsize hx hlink hrest ih =>
      rcases List.append_eq_cons_iff.1 hpqs with ⟨rfl, rfl⟩ | ⟨ps, rfl, hrest'⟩
      · exact ⟨0, _, _, Nat.zero_add _, .nil, .enter hl hn hsize hx hlink hrest⟩
      · obtain ⟨i, i', m', hi, h₁, h₂⟩ := ih hrest'.symm
        exact ⟨i, i', m', hi, .enter hl hn hsize hx hlink h₁, h₂⟩
    | follow hl hn hsize hx hrest ih =>
      rcases List.append_eq_cons_iff.1 hpqs with ⟨rfl, rfl⟩ | ⟨ps, rfl, hrest'⟩
      · exact ⟨0, _, _, Nat.zero_add _, .nil, .follow hl hn hsize hx hrest⟩
      · obtain ⟨i, i', m', hi, h₁, h₂⟩ := ih (by rw [hrest', List.append_assoc])
        exact ⟨i + 1, i', m', by omega, .follow hl hn hsize hx h₁, h₂⟩
    | missing hl hn hsize hx =>
      rcases List.append_eq_cons_iff.1 hpqs with ⟨rfl, rfl⟩ | ⟨ps, rfl, hrest'⟩
      · exact ⟨0, 0, _, rfl, .nil, .missing hl hn hsize hx⟩
      · obtain ⟨rfl, rfl⟩ := List.append_eq_nil_iff.1 hrest'.symm
        exact ⟨0, 0, _, rfl, .missing hl hn hsize hx, .nil⟩
  · rintro ⟨i, i', m', rfl, h₁, h₂⟩
    induction h₁ with
    | nil => rwa [Nat.zero_add]
    | stay hl hp _ ih => exact .stay hl hp (ih h₂)
    | up hl hp _ ih => exact .up hl hp (ih h₂)
    | enter hl hn hsize hx hlink _ ih => exact .enter hl hn hsize hx hlink (ih h₂)
    | follow hl hn hsize hx _ ih =>
      have hrest := ih h₂
      rw [List.append_assoc] at hrest
      rw [Nat.add_right_comm]
      exact .follow hl hn hsize hx hrest
    | missing hl hn hsize hx =>
      -- Nothing is there, so nothing can be looked up in it.
      cases h₂ with
      | nil => exact .missing hl hn hsize hx
      | _ => simp_all

theorem walks_cons_iff {p : Text} :
    d.Walks j l (p :: ps) m ↔
      ∃ i i' m', i + i' = j ∧ d.Walks i l [p] m' ∧ d.Walks i' m' ps m := by
  rw [← List.singleton_append, walks_append_iff]

theorem Walks.folder (h : d.Walks j l ps m) (hps : ps ≠ []) : d.node? l = some .folder := by
  cases h with
  | nil => exact absurd rfl hps
  | _ => assumption

/-! ## Pieces that stand for nothing -/

/-- Whether the piece stands for a component. -/
def isStep (p : Text) : Bool := (Path.component? p).isSome

/-- **Pieces that stand for nothing can be left out.** -/
theorem Walks.steps (h : d.Walks j l ps m) : d.Walks j l (ps.filter isStep) m := by
  induction ps generalizing j l with
  | nil => exact h
  | cons p ps ih =>
    obtain ⟨i, i', m', rfl, hp, hps⟩ := walks_cons_iff.1 h
    by_cases hs : isStep p = true
    · rw [List.filter_cons_of_pos hs]
      exact walks_cons_iff.2 ⟨i, i', m', rfl, hp, ih hps⟩
    · rw [List.filter_cons_of_neg hs]
      have hnone : Path.component? p = none := by simpa [isStep] using hs
      cases hp with
      | stay hl _ hnil =>
        cases hnil
        rw [Nat.zero_add]
        exact ih hps
      | up _ hup => simp [hnone] at hup
      | enter _ hn => exact absurd (hnone.symm.trans hn) (by simp)
      | follow _ hn => exact absurd (hnone.symm.trans hn) (by simp)
      | missing _ hn => exact absurd (hnone.symm.trans hn) (by simp)

/-- **Pieces that stand for nothing can be put in where folders are.** -/
theorem walks_of_steps (hl : d.node? l = some .folder) (hm : d.node? m = some .folder)
    (h : d.Walks j l (ps.filter isStep) m) : d.Walks j l ps m := by
  induction ps generalizing j l with
  | nil => exact h
  | cons p ps ih =>
    by_cases hs : isStep p = true
    · rw [List.filter_cons_of_pos hs] at h
      obtain ⟨i, i', m', rfl, hp, hps⟩ := walks_cons_iff.1 h
      have hm' : d.node? m' = some .folder := by
        by_cases hnil : ps.filter isStep = []
        · rw [hnil] at hps
          cases hps
          exact hm
        · exact hps.folder hnil
      exact walks_cons_iff.2 ⟨i, i', m', rfl, hp, ih hm' hps⟩
    · rw [List.filter_cons_of_neg hs] at h
      exact .stay hl (by simpa [isStep] using hs) (ih hl h)

theorem walks_of_steps_concat {p : Text} (hl : d.node? l = some .folder) (hp : isStep p = true)
    (h : d.Walks j l ((ps ++ [p]).filter isStep) m) : d.Walks j l (ps ++ [p]) m := by
  have hlast : [p].filter isStep = [p] := by simp [hp]
  rw [List.filter_append, hlast] at h
  obtain ⟨i, i', m', rfl, h₁, h₂⟩ := walks_append_iff.1 h
  exact walks_append_iff.2
    ⟨i, i', m', rfl, walks_of_steps hl (h₂.folder (List.cons_ne_nil p [])) h₁, h₂⟩

/-! ## Names without links -/

/-- No node below the location is a link. -/
def LinkFree (d : Disk) (l : Location) : Prop :=
  ∀ names target, d.node? (l ++ names) ≠ some (.link target)

theorem linkFree_of_forall (h : ∀ e ∈ d.nodes, (e.2 matches .link _) = false) (l : Location) :
    d.LinkFree l := by
  intro names target hx
  by_cases hnil : l ++ names = []
  · rw [hnil, node?, if_pos rfl] at hx
    cases hx
  · cases h _ (mem_nodes_of_node? hnil hx)

theorem LinkFree.append {names : List Text} (h : d.LinkFree l) : d.LinkFree (l ++ names) := by
  intro names' target
  rw [List.append_assoc]
  exact h (names ++ names') target

/-- **Without links, names lead down the tree.** -/
theorem Walks.eq_append {names : List Text} (h : d.Walks j l names m) (hfree : d.LinkFree l)
    (hnames : ∀ n ∈ names, Path.IsName n) : j = 0 ∧ m = l ++ names := by
  induction h with
  | nil => exact ⟨rfl, (List.append_nil _).symm⟩
  | @stay _ _ _ p _ _ hp _ _ =>
    have hn := hnames p List.mem_cons_self
    exact absurd (hp.symm.trans hn) (by simp)
  | @up _ _ _ p _ _ hp _ _ =>
    have hn := hnames p List.mem_cons_self
    exact absurd (hp.symm.trans hn) (by simp)
  | enter _ _ _ _ _ _ ih =>
    obtain ⟨rfl, rfl⟩ := ih hfree.append fun n hn => hnames n (List.mem_cons_of_mem _ hn)
    exact ⟨rfl, List.append_assoc ..⟩
  | follow _ _ _ hx _ _ => exact absurd hx (hfree _ _)
  | missing => exact ⟨rfl, rfl⟩

/-- **Where there is a node and no link leads there, its names do.** -/
theorem IsTree.walks_of_node? (hd : d.IsTree) (hfree : d.LinkFree l) {names : List Text} {x : Node}
    (hx : d.node? (l ++ names) = some x) : d.Walks 0 l names (l ++ names) := by
  induction names generalizing l with
  | nil =>
    rw [List.append_nil]
    exact .nil
  | cons n names ih =>
    have hentry : IsEntryName n := hd.isEntryName_of_mem hx (by simp)
    have hl : d.node? l = some .folder := hd.folder_of_append (List.cons_ne_nil n names) hx
    rw [List.append_cons] at hx ⊢
    have hn : ∃ y, d.node? (l ++ [n]) = some y := by
      by_cases hnil : names = []
      · subst hnil
        rw [List.append_nil] at hx
        exact ⟨x, hx⟩
      · exact ⟨.folder, hd.folder_of_append hnil hx⟩
    obtain ⟨y, hy⟩ := hn
    refine .enter hl hentry.isName hentry.size hy ?_ (ih hfree.append hx)
    rintro target rfl
    exact hfree [n] target hy

/-! ## How long a walk can be -/

/-- The most names that lead to a node. -/
def height (d : Disk) : Nat := (d.nodes.map fun e => e.1.length).foldr max 0

theorem length_le_height {x : Node} (h : d.node? l = some x) : l.length ≤ d.height := by
  by_cases hl : l = []
  · simp [hl]
  · have hmem : l.length ∈ d.nodes.map fun e => e.1.length :=
      List.mem_map.2 ⟨(l, x), mem_nodes_of_node? hl h, rfl⟩
    exact List.le_max_of_le' 0 hmem (Nat.le_refl _)

/-- **A walk along names descends, but for the links that it follows.** -/
theorem Walks.length_add_le {names : List Text} (h : d.Walks j l names m)
    (hnames : ∀ n ∈ names, Path.IsName n) :
    names.length + l.length ≤ m.length + j * (d.height + 1) := by
  induction j using Nat.strongRecOn generalizing l names with
  | ind j ihj =>
  induction names generalizing l with
  | nil =>
    cases h
    simp
  | cons n names ih =>
    have hn : Path.component? n = some (.name n) := hnames n List.mem_cons_self
    have hrest : ∀ n' ∈ names, Path.IsName n' :=
      fun n' hn' => hnames n' (List.mem_cons_of_mem n hn')
    cases h with
    | stay _ hp _ => simp [hn] at hp
    | up _ hp _ => simp [hn] at hp
    | enter _ _ _ _ _ h =>
      have htail := ih h hrest
      simp only [List.length_append, List.length_cons, List.length_nil] at htail ⊢
      omega
    | missing => simp; omega
    | @follow j _ _ _ target _ hl _ _ _ h =>
      -- The link may lead up the whole tree.
      obtain ⟨i, i', m', hi, htarget, h⟩ := walks_append_iff.1 h
      have hle : i' ≤ j := by omega
      have htail := ihj i' (Nat.lt_succ_of_le hle) h hrest
      have hlinks : i' * (d.height + 1) ≤ j * (d.height + 1) := Nat.mul_le_mul_right _ hle
      have hheight : l.length ≤ d.height := length_le_height hl
      rw [List.length_cons, Nat.succ_mul]
      omega

end ScriptLexer.Disk
