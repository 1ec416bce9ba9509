import ScriptLexer.Path.Parts

/-!
# Components of joined paths and of folders

What the operations on paths do to what a path addresses, whatever pieces it is spelled with:

* joining a relative path adds its components (`components_join`),
* the folder of a path has all of its components but the last (`components_folder`), and
* a sibling `p.folder.join ⟨n⟩` has another last component (`components_folder_join`).

The `steps` of a path are the pieces that stand for a component. They depend on the components only
(`steps_eq`), and so does whether the path is absolute (`isAbsolute_iff`).
-/

namespace ScriptLexer.Path

/-! ## Names -/

/-- A piece that names an entry of a folder: neither empty nor `.` nor `..`. -/
def IsName (n : Text) : Prop := component? n = some (.name n)

instance (n : Text) : Decidable (IsName n) := inferInstanceAs (Decidable (_ = _))

theorem component?_eq_name {p n : Text} (h : component? p = some (.name n)) : n = p ∧ IsName p := by
  unfold IsName
  unfold component? at h ⊢
  split at h <;> simp_all

theorem component?_ne_root (p : Text) : component? p ≠ some .root := by
  unfold component?
  split <;> simp

theorem component?_ne_here (p : Text) : component? p ≠ some .here := by
  unfold component?
  split <;> simp

theorem IsName.ne_nil {n : Text} (h : IsName n) : n ≠ [] := by
  rintro rfl
  cases h

theorem IsName.ne_dot {n : Text} (h : IsName n) : n ≠ ['.'] := by
  rintro rfl
  cases h

theorem IsName.isSome {n : Text} (h : IsName n) : (component? n).isSome = true := by
  rw [IsName] at h
  rw [h]
  rfl

theorem filterMap_component?_of_isName {names : List Text} (h : ∀ n ∈ names, IsName n) :
    names.filterMap component? = names.map .name := by
  induction names with
  | nil => rfl
  | cons n names ih =>
    have hn : component? n = some (.name n) := h n List.mem_cons_self
    rw [List.filterMap_cons, hn, ih fun m hm => h m (List.mem_cons_of_mem n hm), List.map_cons]

/-! ## Where pieces start -/

theorem components_eq (p : Path) :
    p.components = (anchored (pieces p.text)).1.toList ++
      (anchored (pieces p.text)).2.filterMap component? := rfl

theorem anchored_append {ps : List Text} (hne : ps ≠ []) (h : ps ≠ [[]]) (qs : List Text) :
    anchored (ps ++ qs) = ((anchored ps).1, (anchored ps).2 ++ qs) := by
  match ps, hne, h with
  | [] :: p :: ps, _, _ => rfl
  | ['.'] :: ps, _, _ => rfl
  | (c :: d :: p) :: ps, _, _ => simp [anchored]
  | [c] :: ps, _, _ =>
    by_cases hc : c = '.'
    · subst hc
      rfl
    · simp [anchored, hc]

theorem anchored_of_isName {p : Text} (h : IsName p) (ps : List Text) :
    anchored (p :: ps) = (none, p :: ps) := by
  unfold anchored
  split
  · next he => exact absurd (List.cons.inj he).1 h.ne_nil
  · next he => exact absurd (List.cons.inj he).1 h.ne_dot
  · rfl

theorem filter_anchored (ps : List Text) :
    (anchored ps).2.filter (fun q => (component? q).isSome) =
      ps.filter fun q => (component? q).isSome := by
  unfold anchored
  split <;> simp [component?]

theorem component_ne_root_of_mem {ps : List Text} {c : Component}
    (h : c ∈ ps.filterMap component?) : c ≠ .root ∧ c ≠ .here := by
  obtain ⟨p, -, hp⟩ := List.mem_filterMap.1 h
  constructor
  · rintro rfl
    exact component?_ne_root p hp
  · rintro rfl
    exact component?_ne_here p hp

/-- **A path is absolute if the root is one of its components.** -/
theorem isAbsolute_iff {p : Path} : p.isAbsolute = true ↔ .root ∈ p.components := by
  have hanchor : p.isAbsolute = true ↔ p.anchor = some .root := by
    rw [anchor_eq_root_iff, isAbsolute, beq_iff_eq]
  rw [hanchor, components, List.mem_append, Option.mem_toList]
  constructor
  · exact .inl
  · rintro (h | h)
    · exact h
    · exact absurd rfl (component_ne_root_of_mem h).1

/-! ## Steps -/

/-- The pieces that stand for a component. -/
def steps (p : Path) : List Text := (pieces p.text).filter fun q => (component? q).isSome

/-- The piece that stands for the component; a start has none. -/
def piece? : Component → Option Text
  | .root | .here => none
  | .up => some ['.', '.']
  | .name n => some n

theorem bind_piece? (q : Text) :
    (component? q).bind piece? = if (component? q).isSome then some q else none := by
  unfold component?
  split <;> rfl

/-- **The steps depend on the components only.** -/
theorem steps_eq (p : Path) : p.steps = p.components.filterMap piece? := by
  have hstart : p.anchor.toList.filterMap piece? = [] := by
    rcases p.anchor_cases with h | h | h <;> rw [h] <;> rfl
  have hbind : (fun q => (component? q).bind piece?) =
      Option.guard fun q => (component? q).isSome := by
    funext q
    rw [bind_piece?, Option.guard]
  rw [components, List.filterMap_append, hstart, List.nil_append, List.filterMap_filterMap, hbind,
    List.filterMap_eq_filter, body, filter_anchored, steps]

theorem mem_steps_iff {p : Path} {n : Text} (hn : IsName n) :
    n ∈ p.steps ↔ .name n ∈ p.components := by
  rw [steps_eq, List.mem_filterMap]
  constructor
  · rintro ⟨c, hc, hpiece⟩
    cases c with
    | name m => rwa [← Option.some.inj hpiece]
    | up =>
      obtain rfl := Option.some.inj hpiece
      cases hn
    | _ => cases hpiece
  · intro h
    exact ⟨_, h, rfl⟩

theorem mem_iff_exists_piece {c : Char} (hc : c ≠ '/') (t : Text) :
    c ∈ t ↔ ∃ p ∈ pieces t, c ∈ p := by
  induction t with
  | nil => simp [pieces]
  | cons d t ih =>
    by_cases hd : d = '/'
    · subst hd
      simp [hc, ih]
    · obtain ⟨p, ps, hps⟩ := List.exists_cons_of_ne_nil (pieces_ne_nil t)
      rw [pieces_cons hd]
      simp only [hps] at ih ⊢
      simp only [List.mem_cons, ih, exists_eq_or_imp, List.head_cons, List.tail_cons, or_assoc]

theorem mem_text_iff {c : Char} (hslash : c ≠ '/') (hdot : c ≠ '.') (p : Path) :
    c ∈ p.text ↔ ∃ n, .name n ∈ p.components ∧ c ∈ n := by
  rw [mem_iff_exists_piece hslash]
  have hname : ∀ q : Text, c ∈ q → IsName q := by
    intro q hq
    unfold IsName component?
    split <;> simp_all
  constructor
  · rintro ⟨q, hq, hc⟩
    have hq' : q ∈ p.steps := List.mem_filter.2 ⟨hq, (hname q hc).isSome⟩
    exact ⟨q, (mem_steps_iff (hname q hc)).1 hq', hc⟩
  · rintro ⟨q, hq, hc⟩
    exact ⟨q, (List.mem_filter.1 ((mem_steps_iff (hname q hc)).2 hq)).1, hc⟩

/-! ## The last piece -/

/-- The path is spelled with a name last, so it can address a file. -/
def EndsInName (p : Path) : Prop := ∃ n, (pieces p.text).getLast? = some n ∧ IsName n

theorem EndsInName.text_ne_nil {p : Path} (h : p.EndsInName) : p.text ≠ [] := by
  obtain ⟨n, hp, hn⟩ := h
  intro hnil
  rw [hnil] at hp
  exact hn.ne_nil (Option.some.inj hp).symm

/-! ## Joining -/

theorem pieces_append (a b : Text) : pieces (a ++ '/' :: b) = pieces a ++ pieces b := by
  induction a with
  | nil => exact pieces_slash b
  | cons c a ih =>
    by_cases hc : c = '/'
    · subst hc
      rw [List.cons_append, pieces_slash, ih, pieces_slash, List.cons_append]
    · rw [List.cons_append, pieces_cons hc, pieces_cons hc]
      simp [ih, pieces_ne_nil]

/-- **A joined path is spelled with the pieces of the second one last.** -/
theorem exists_join {p q : Path} (hp : p.text ≠ []) (hq : q.isAbsolute = false) :
    ∃ a, (p.text = a ∨ p.text = a ++ ['/']) ∧ (p.join q).text = a ++ '/' :: q.text := by
  rw [join, hq]
  cases hlast : p.text.getLast? == some '/' with
  | false =>
    have hjoin : ¬(p.text.isEmpty || false) = true := by simpa using hp
    exact ⟨p.text, .inl rfl, by simp [hjoin]⟩
  | true =>
    obtain ⟨a, ha⟩ := List.getLast?_eq_some_iff.1 (beq_iff_eq.1 hlast)
    exact ⟨a, .inr ha, by simp [ha]⟩

theorem join_of_text_eq_nil {p : Path} (hp : p.text = []) (q : Path) : p.join q = q := by
  rw [join, hp]
  simp

theorem exists_pieces_join {p q : Path} (hq : q.isAbsolute = false) :
    ∃ front, pieces (p.join q).text = front ++ pieces q.text := by
  by_cases hp : p.text = []
  · exact ⟨[], by rw [join_of_text_eq_nil hp, List.nil_append]⟩
  · obtain ⟨a, -, htext⟩ := exists_join hp hq
    exact ⟨pieces a, by rw [htext, pieces_append]⟩

theorem EndsInName.join {q : Path} (h : q.EndsInName) (p : Path) (hq : q.isAbsolute = false) :
    (p.join q).EndsInName := by
  obtain ⟨n, hn, hname⟩ := h
  obtain ⟨front, hpieces⟩ := exists_pieces_join (p := p) hq
  refine ⟨n, ?_, hname⟩
  rw [hpieces, List.getLast?_append, hn]
  rfl

/-- **Joining adds components.** -/
theorem components_join {p q : Path} (hp : p.text ≠ []) (hq : q.isAbsolute = false) :
    (p.join q).components = p.components ++ (pieces q.text).filterMap component? := by
  obtain ⟨a, hpa, htext⟩ := exists_join hp hq
  rw [components_eq, components_eq p, htext, pieces_append]
  by_cases ha : pieces a = [[]]
  · -- The path is the root.
    have hroot : p.text = ['/'] := by
      have hnil : a = [] := by rw [← joined_pieces a, ha]; rfl
      subst hnil
      exact hpa.resolve_left hp
    obtain ⟨q', qs, hqs⟩ := List.exists_cons_of_ne_nil (pieces_ne_nil q.text)
    rw [ha, hroot, hqs]
    rfl
  · rw [anchored_append (pieces_ne_nil a) ha]
    rcases hpa with hpa | hpa
    · rw [hpa, List.filterMap_append, List.append_assoc]
    · have hlast : pieces [] = [[]] := rfl
      rw [hpa, pieces_append, anchored_append (pieces_ne_nil a) ha, hlast]
      simp [component?]

theorem isAbsolute_of_notMem {n : Text} (hslash : '/' ∉ n) : (⟨n⟩ : Path).isAbsolute = false := by
  rw [isAbsolute, beq_eq_false_iff_ne]
  intro hhead
  exact hslash (List.mem_of_head? hhead)

theorem components_join_name {p : Path} {n : Text} (hn : IsName n) (hslash : '/' ∉ n) :
    (p.join ⟨n⟩).components = p.components ++ [.name n] := by
  have hpieces : pieces n = [n] := pieces_of_notMem hslash
  have hrelative : (⟨n⟩ : Path).isAbsolute = false := isAbsolute_of_notMem hslash
  by_cases hp : p.text = []
  · have hempty : p.components = [] := by rw [components_eq, hp]; rfl
    rw [join_of_text_eq_nil hp, hempty, components_eq, hpieces, anchored_of_isName hn]
    exact filterMap_component?_of_isName (by simpa using hn)
  · rw [components_join hp hrelative, hpieces, filterMap_component?_of_isName (by simpa using hn)]
    rfl

theorem endsInName_join_name (p : Path) {n : Text} (hn : IsName n) (hslash : '/' ∉ n) :
    (p.join ⟨n⟩).EndsInName := by
  refine EndsInName.join ⟨n, ?_, hn⟩ p (isAbsolute_of_notMem hslash)
  rw [pieces_of_notMem hslash]
  rfl

/-! ## Folders -/

theorem filterMap_reverse_dropWhile (ps : List Text) :
    (ps.dropWhile (component? · |>.isNone)).reverse.filterMap component? =
      ps.reverse.filterMap component? := by
  induction ps with
  | nil => rfl
  | cons q ps ih => cases hq : component? q <;> simp [hq, ih]

theorem components_anchoredText {start : Option Component} {ps : List Text}
    (hslash : ∀ q ∈ ps, '/' ∉ q)
    (hstart : start = some .root ∨ start = some .here ∨
      start = none ∧ ∀ q, ps.head? = some q → q ≠ [] ∧ q ≠ ['.']) :
    (⟨anchoredText start ps⟩ : Path).components = start.toList ++ ps.filterMap component? := by
  rw [components_eq]
  rcases hstart with rfl | rfl | ⟨rfl, hhead⟩
  · rw [anchoredText, pieces_slash]
    cases ps with
    | nil => rfl
    | cons q ps =>
      rw [pieces_joined (by simp) hslash]
      rfl
  · have hdot : ∀ q ∈ ['.'] :: ps, '/' ∉ q := by simpa using hslash
    rw [anchoredText, pieces_joined (by simp) hdot]
    rfl
  · cases ps with
    | nil => rfl
    | cons q ps =>
      obtain ⟨hnil, hdot⟩ := hhead q rfl
      have hnone : anchored (q :: ps) = (none, q :: ps) := by
        unfold anchored
        split
        · next he => exact absurd (List.cons.inj he).1 hnil
        · next he => exact absurd (List.cons.inj he).1 hdot
        · rfl
      have hpieces : pieces (anchoredText none (q :: ps)) = q :: ps :=
        pieces_joined (by simp) hslash
      rw [hpieces, hnone]

theorem head_of_anchored_eq_none {ps : List Text} (h : (anchored ps).1 = none)
    (hne : (anchored ps).2 ≠ [[]]) :
    ∀ q, (anchored ps).2.head? = some q → q ≠ [] ∧ q ≠ ['.'] := by
  match ps, h, hne with
  | [], _, _ => simp [anchored]
  | [[]], _, hne => exact absurd rfl hne
  | (c :: d :: p) :: ps, _, _ => simp [anchored]
  | [c] :: ps, h, _ =>
    by_cases hc : c = '.'
    · subst hc
      cases h
    · simp [anchored, hc]

theorem mem_pieces_of_mem_body {p : Path} {q : Text} (h : q ∈ p.body) : q ∈ pieces p.text := by
  unfold body anchored at h
  split at h <;> simp_all

/-- **Only the empty path addresses nothing.** -/
theorem text_eq_nil_of_components {p : Path} (h : p.components = []) : p.text = [] := by
  obtain ⟨hanchor, hbody⟩ := List.append_eq_nil_iff.1 h
  have hnone : (anchored (pieces p.text)).1 = none := Option.toList_eq_nil_iff.1 hanchor
  by_cases hne : p.body = [[]]
  · have hpieces : pieces p.text = [[]] := by
      unfold body anchored at hne
      unfold anchored at hnone
      split at hnone <;> simp_all
    rw [← joined_pieces p.text, hpieces]
    rfl
  · exfalso
    obtain ⟨q, hq⟩ : ∃ q, p.body.head? = some q := by
      cases hp : p.body with
      | nil =>
        unfold body anchored at hp
        unfold anchored at hnone
        split at hnone <;> simp_all [pieces_ne_nil]
      | cons q qs => exact ⟨q, rfl⟩
    obtain ⟨hnil, hdot⟩ := head_of_anchored_eq_none hnone hne q hq
    have hcomponent := List.filterMap_eq_nil_iff.1 hbody q (List.mem_of_head? hq)
    exact (component?_eq_none.1 hcomponent).elim hnil hdot

theorem components_of_prefix {p : Path} {ps : List Text} (hps : ps <+: p.body)
    (hne : p.body ≠ [[]]) :
    (⟨anchoredText p.anchor ps⟩ : Path).components =
      p.anchor.toList ++ ps.filterMap component? := by
  have hslash : ∀ q ∈ ps, '/' ∉ q := by
    intro q hq
    exact slash_notMem_of_mem_pieces (mem_pieces_of_mem_body (hps.subset hq))
  apply components_anchoredText hslash
  rcases p.anchor_cases with h | h | h
  · exact .inl h
  · exact .inr (.inl h)
  · refine .inr (.inr ⟨h, ?_⟩)
    intro q hq
    obtain ⟨back, hback⟩ := hps
    apply head_of_anchored_eq_none h hne
    change p.body.head? = some q
    rw [← hback, List.head?_append, hq]
    rfl

/-- **The folder of a path has all of its components but the last.** -/
theorem components_folder (p : Path) : p.folder.components = p.components.dropLast := by
  have hp : p.components = p.anchor.toList ++ p.body.filterMap component? := rfl
  have hbody := filterMap_reverse_dropWhile p.body.reverse
  rw [List.reverse_reverse] at hbody
  rw [folder, parent?]
  split
  · next hnone =>
    -- The path has no component besides its start.
    rw [hnone] at hbody
    rw [hp, ← hbody]
    rcases p.anchor_cases with h | h | h <;> rw [h] <;> rfl
  · next q before hsome =>
    rw [hsome, List.reverse_cons, List.filterMap_append] at hbody
    have hq : (component? q).isSome = true := by
      have hhead := List.head?_dropWhile_not (component? · |>.isNone) p.body.reverse
      rw [hsome] at hhead
      simpa [Option.isSome_iff_ne_none] using hhead
    obtain ⟨c, hc⟩ := Option.isSome_iff_exists.1 hq
    have hprefix : (before.dropWhile (component? · |>.isNone)).reverse <+: p.body := by
      have hsuffix : before.dropWhile (component? · |>.isNone) <:+ p.body.reverse :=
        ((List.dropWhile_suffix _).trans (List.suffix_cons q before)).trans
          (hsome ▸ List.dropWhile_suffix _)
      simpa using List.reverse_prefix.2 hsuffix
    rw [List.filterMap_cons, hc, List.filterMap_nil] at hbody
    have hne : p.body ≠ [[]] := by
      intro he
      rw [he] at hbody
      exact List.append_ne_nil_of_right_ne_nil _ (List.cons_ne_nil c []) hbody
    rw [Option.getD_some, components_of_prefix hprefix hne, filterMap_reverse_dropWhile, hp,
      ← hbody, ← List.append_assoc, List.dropLast_concat]

/-- **A sibling has its own name for the last component.** -/
theorem components_folder_join {p : Path} {n : Text} (hn : IsName n) (hslash : '/' ∉ n) :
    (p.folder.join ⟨n⟩).components = p.components.dropLast ++ [.name n] := by
  rw [components_join_name hn hslash, components_folder]

end ScriptLexer.Path
