import Mathlib.Data.List.Basic
import ScriptLexer.Proofs.Path.Below

/-!
# Paths with the same folder

A path that ends in a name addresses its folder and that name (`components_of_fileName?`). Another name
joined to the folder is a sibling: it addresses the same folder (`components_folder_sibling`) and its
own name (`fileName?_sibling`), and it is below whatever the path is below (`IsBelow.sibling`).
Nothing depends on how the path is spelled, with separators behind its name, with `.` pieces, from
the root or from nowhere.
-/

namespace ScriptLexer.Path

variable {p q : Path} {n : Text}

/-! ## The last name -/

theorem fileName?_eq_some_iff : p.fileName? = some n ↔ p.components.getLast? = some (.name n) := by
  rw [fileName?]
  cases hlast : p.components.getLast? with
  | none => simp
  | some c => cases c <;> simp

theorem fileName?_of_components {cs : List Component} (h : p.components = cs ++ [.name n]) :
    p.fileName? = some n := by
  rw [fileName?_eq_some_iff, h, List.getLast?_concat]

theorem fileName?_congr (h : p.components = q.components) : p.fileName? = q.fileName? := by
  rw [fileName?, fileName?, h]

/-- **A path with a last name is that name in its folder.** -/
theorem components_of_fileName? (h : p.fileName? = some n) :
    p.components = p.folder.components ++ [.name n] := by
  rw [components_folder, List.dropLast_append_getLast? _ (fileName?_eq_some_iff.1 h)]

theorem isName_of_mem_components (h : .name n ∈ p.components) : IsName n := by
  rcases List.mem_append.1 h with h | h
  · rcases p.anchor_cases with ha | ha | ha <;> simp [ha] at h
  · obtain ⟨piece, -, hpiece⟩ := List.mem_filterMap.1 h
    obtain ⟨rfl, hname⟩ := component?_eq_name hpiece
    exact hname

theorem slash_notMem_of_fileName? (h : p.fileName? = some n) : '/' ∉ n := by
  have hmem : .name n ∈ p.components := List.mem_of_getLast? (fileName?_eq_some_iff.1 h)
  exact slash_notMem_of_mem_components (isName_of_mem_components hmem) hmem

theorem parent?_of_fileName? (h : p.fileName? = some n) : p.parent? = some p.folder := by
  cases hparent : p.parent? with
  | some f => rw [folder, hparent, Option.getD_some]
  | none =>
    -- Without a parent there is at most a start, and no start is a name.
    exfalso
    have hbody : p.body.filterMap component? = [] := by
      have hdrop := filterMap_reverse_dropWhile p.body.reverse
      rw [List.reverse_reverse] at hdrop
      rw [parent?] at hparent
      split at hparent
      · next hnil =>
        rw [← hdrop, hnil]
        rfl
      · cases hparent
    have hlast := fileName?_eq_some_iff.1 h
    rw [components, hbody, List.append_nil] at hlast
    rcases p.anchor_cases with ha | ha | ha <;> simp [ha] at hlast

/-! ## Siblings -/

theorem fileName?_sibling (hn : IsName n) (hslash : '/' ∉ n) :
    (p.folder.join ⟨n⟩).fileName? = some n :=
  fileName?_of_components (components_folder_join hn hslash)

/-- **A sibling is in the same folder.** -/
theorem components_folder_sibling (hn : IsName n) (hslash : '/' ∉ n) :
    (p.folder.join ⟨n⟩).folder.components = p.folder.components := by
  rw [components_folder, components_folder_join hn hslash, List.dropLast_concat, components_folder]

/-! ## Siblings below components -/

section Below

variable {cs : List Component} {names : List Text} (h : p.IsBelow cs (names ++ [n]))

include h

theorem IsBelow.fileName?_eq : p.fileName? = some n := by
  have hcomponents : p.components = (cs ++ names.map .name) ++ [.name n] := by
    rw [h.components, List.map_append, List.map_singleton, List.append_assoc]
  exact fileName?_of_components hcomponents

theorem IsBelow.sibling {m : Text} (hm : IsName m) (hslash : '/' ∉ m) :
    (p.folder.join ⟨m⟩).IsBelow cs (names ++ [m]) := by
  refine ⟨?_, ?_, endsInName_join_name p.folder hm hslash⟩
  · rw [components_folder_join hm hslash, h.components, List.map_append, ← List.append_assoc,
      List.map_singleton, List.dropLast_concat, List.map_append, List.append_assoc]
    rfl
  · intro k hk
    rcases List.mem_append.1 hk with hk | hk
    · exact h.names k (List.mem_append_left _ hk)
    · rwa [List.mem_singleton.1 hk]

end Below

end ScriptLexer.Path
