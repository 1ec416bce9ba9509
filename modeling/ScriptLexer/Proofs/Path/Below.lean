import ScriptLexer.Proofs.Path.Components

/-!
# Paths below others

`Path.IsBelow p cs names`: the path addresses what the names lead to from where the components
`cs` lead to, and it is spelled with a name last, as a path to a file has to be.

A local path (`Path.IsLocal`) stays below the folder that it is seen from (`IsLocal.isBelow_join`). A
plain one (`Path.IsPlain`) is nothing but names, and may be seen from nowhere.
-/

namespace ScriptLexer.Path

/-- The path addresses what the names lead to below the components, and ends in a name. -/
structure IsBelow (p : Path) (cs : List Component) (names : List Text) : Prop where
  components : p.components = cs ++ names.map .name
  names : ∀ n ∈ names, IsName n
  endsInName : p.EndsInName

/-- Every piece of the path is a name. -/
def IsPlain (p : Path) : Prop := ∀ q ∈ pieces p.text, IsName q

/-- The path is relative, does not leave its folder, and ends in a name. -/
structure IsLocal (p : Path) : Prop where
  relative : p.isAbsolute = false
  down : ['.', '.'] ∉ pieces p.text
  last : ∀ n, (pieces p.text).getLast? = some n → n ≠ [] ∧ n ≠ ['.']

instance (p : Path) : Decidable p.IsPlain :=
  inferInstanceAs (Decidable (∀ q ∈ pieces p.text, IsName q))

theorem IsBelow.of_append {p : Path} {cs : List Component} {front names : List Text}
    (h : p.IsBelow (cs ++ front.map .name) names) (hfront : ∀ n ∈ front, IsName n) :
    p.IsBelow cs (front ++ names) := by
  refine ⟨?_, ?_, h.endsInName⟩
  · rw [h.components, List.map_append, List.append_assoc]
  · intro n hn
    exact (List.mem_append.1 hn).elim (hfront n) (h.names n)

/-! ## Names of pieces -/

theorem slash_notMem_of_mem_components {p : Path} {n : Text} (hn : IsName n)
    (h : .name n ∈ p.components) : '/' ∉ n := by
  have hsteps : n ∈ p.steps := (mem_steps_iff hn).2 h
  exact slash_notMem_of_mem_pieces (List.mem_filter.1 hsteps).1

theorem isName_of_ne {n : Text} (hnil : n ≠ []) (hdot : n ≠ ['.']) (hup : n ≠ ['.', '.']) :
    IsName n := by
  unfold IsName component?
  split <;> simp_all

theorem isName_of_length {n : Text} (h : 2 < n.length) : IsName n := by
  apply isName_of_ne <;> rintro rfl <;> simp at h

theorem isName_of_mem_steps {p : Path} (h : ['.', '.'] ∉ pieces p.text) :
    ∀ n ∈ p.steps, IsName n := by
  intro n hn
  obtain ⟨hmem, hstep⟩ := List.mem_filter.1 hn
  apply isName_of_ne
  · rintro rfl
    cases hstep
  · rintro rfl
    cases hstep
  · rintro rfl
    exact h hmem

theorem filterMap_pieces {p : Path} (h : ['.', '.'] ∉ pieces p.text) :
    (pieces p.text).filterMap component? = p.steps.map .name := by
  rw [← filterMap_component?_of_isName (isName_of_mem_steps h), steps, List.filterMap_filter]
  congr 1
  funext q
  cases component? q <;> simp

/-! ## Local and plain paths -/

theorem IsLocal.endsInName {p : Path} (h : p.IsLocal) : p.EndsInName := by
  obtain ⟨n, hn⟩ : ∃ n, (pieces p.text).getLast? = some n :=
    ⟨_, List.getLast?_eq_some_getLast (pieces_ne_nil p.text)⟩
  obtain ⟨hnil, hdot⟩ := h.last n hn
  refine ⟨n, hn, isName_of_ne hnil hdot ?_⟩
  rintro rfl
  exact h.down (List.mem_of_getLast? hn)

theorem IsLocal.steps_ne_nil {p : Path} (h : p.IsLocal) : p.steps ≠ [] := by
  obtain ⟨n, hn, hname⟩ := h.endsInName
  exact List.ne_nil_of_mem (List.mem_filter.2 ⟨List.mem_of_getLast? hn, hname.isSome⟩)

theorem IsBelow.components_folder {p : Path} {cs : List Component} {names : List Text}
    (h : p.IsBelow cs names) (hne : names ≠ []) :
    p.folder.components = cs ++ names.dropLast.map .name := by
  rw [Path.components_folder, h.components, List.dropLast_append_of_ne_nil (by simpa using hne),
    List.map_dropLast]

/-- **A local path stays below the folder that it is seen from.** -/
theorem IsLocal.isBelow_join {q : Path} (h : q.IsLocal) {p : Path} (hp : p.text ≠ []) :
    (p.join q).IsBelow p.components q.steps := by
  refine ⟨?_, isName_of_mem_steps h.down, h.endsInName.join p h.relative⟩
  rw [components_join hp h.relative, filterMap_pieces h.down]

theorem IsPlain.isLocal {p : Path} (h : p.IsPlain) : p.IsLocal := by
  refine ⟨?_, ?_, ?_⟩
  · rw [← Bool.not_eq_true, isAbsolute, beq_iff_eq]
    intro hhead
    obtain ⟨t, ht⟩ := List.head?_eq_some_iff.1 hhead
    have hnil : ([] : Text) ∈ pieces p.text := by
      rw [ht, pieces_slash]
      exact List.mem_cons_self
    exact (h [] hnil).ne_nil rfl
  · intro hmem
    cases h _ hmem
  · intro n hn
    have hname := h n (List.mem_of_getLast? hn)
    exact ⟨hname.ne_nil, hname.ne_dot⟩

theorem IsPlain.steps_eq {p : Path} (h : p.IsPlain) : p.steps = pieces p.text :=
  List.filter_eq_self.2 fun q hq => (h q hq).isSome

theorem IsPlain.isBelow {p : Path} (h : p.IsPlain) : p.IsBelow [] (pieces p.text) := by
  refine ⟨?_, h, h.isLocal.endsInName⟩
  obtain ⟨q, qs, hqs⟩ := List.exists_cons_of_ne_nil (pieces_ne_nil p.text)
  have hq : IsName q := h q (by simp [hqs])
  rw [components_eq, hqs, anchored_of_isName hq, ← hqs, filterMap_component?_of_isName h]
  rfl

theorem IsPlain.isBelow_join {q : Path} (h : q.IsPlain) (p : Path) :
    (p.join q).IsBelow p.components (pieces q.text) := by
  by_cases hp : p.text = []
  · have hempty : p.components = [] := by rw [components_eq, hp]; rfl
    rw [join_of_text_eq_nil hp, hempty]
    exact h.isBelow
  · rw [← h.steps_eq]
    exact h.isLocal.isBelow_join hp

end ScriptLexer.Path
