import Mathlib.Logic.Relation
import ScriptLexer.Proofs.Path.Components
import ScriptLexer.Reference.Candidates
import ScriptLexer.Script

/-!
# What a reference addresses

A reference is written with either slash, and is seen from the folder of its script. One that starts
with a slash replaces the folder. Any other adds its components to those of the script without the
last; the `.` that it may start from counts only where nothing is in front of it (`seenFrom`).

**The folder as a text and as components.** Joining is a matter of texts: it may have to add a
separator, and the empty folder adds nothing at all. Both sides have been brought to components
(`Path.components_join`, `Path.components_folder`), and only the empty folder is a case of its own.

**Spelling does not matter** (`Respelling`). What a reference addresses depends on the components of
its text only (`components_referencePath_congr`), and a piece that stands for nothing can be left
out behind a separator (`Path.components_insert`).

Main result: `referencePath_addresses`.
-/

namespace ScriptLexer

/-! ## Components seen from others -/

/-- Components behind others. The `.` that a path starts from is left out there. -/
def seenFrom (front : List Component) : List Component → List Component
  | .here :: cs => if front = [] then .here :: cs else front ++ cs
  | cs => front ++ cs

@[simp] theorem seenFrom_nil (cs : List Component) : seenFrom [] cs = cs := by
  unfold seenFrom
  split <;> simp

theorem seenFrom_here {front : List Component} (hfront : front ≠ []) (cs : List Component) :
    seenFrom front (.here :: cs) = front ++ cs := if_neg hfront

theorem seenFrom_of_head? {cs : List Component} (h : cs.head? ≠ some .here)
    (front : List Component) : seenFrom front cs = front ++ cs := by
  unfold seenFrom
  split
  · exact absurd rfl h
  · rfl

namespace Path

theorem filterMap_anchored (ps : List Text) :
    (anchored ps).2.filterMap component? = ps.filterMap component? := by
  unfold anchored
  split <;> rfl

/-- **Behind others, a relative path has the components of its pieces.** -/
theorem seenFrom_components {q : Path} {front : List Component} (hfront : front ≠ [])
    (hq : q.isAbsolute = false) :
    seenFrom front q.components = front ++ (pieces q.text).filterMap component? := by
  have hcomponents : q.components = q.anchor.toList ++ (pieces q.text).filterMap component? := by
    rw [← filterMap_anchored]
    rfl
  rw [hcomponents]
  rcases q.anchor_cases with ha | ha | ha
  · -- A path that starts from the root is absolute.
    have hroot : q.isAbsolute = true := isAbsolute_iff.2 (by simp [hcomponents, ha])
    rw [hq] at hroot
    cases hroot
  · rw [ha]
    exact seenFrom_here hfront _
  · rw [ha]
    refine seenFrom_of_head? (fun hhead => ?_) front
    exact (component_ne_root_of_mem (List.mem_of_head? hhead)).2 rfl

/-- **A piece that stands for nothing can be left out behind a separator.** -/
theorem components_insert {p : Text} (hp : component? p = none) (hslash : '/' ∉ p) (u v : Text) :
    (⟨u ++ '/' :: (p ++ '/' :: v)⟩ : Path).components = (⟨u ++ '/' :: v⟩ : Path).components := by
  have hlong : pieces (u ++ '/' :: (p ++ '/' :: v)) = pieces u ++ p :: pieces v := by
    rw [pieces_append, pieces_append_slash hslash]
  rw [components_eq, components_eq, hlong, pieces_append]
  by_cases hu : pieces u = [[]]
  · -- The separator is the root.
    obtain ⟨q, qs, hqs⟩ := List.exists_cons_of_ne_nil (pieces_ne_nil v)
    rw [hu, hqs]
    simp [anchored, hp]
  · rw [anchored_append (pieces_ne_nil u) hu, anchored_append (pieces_ne_nil u) hu,
      List.filterMap_append, List.filterMap_append, List.filterMap_cons, hp]

end Path

/-! ## References -/

section Reference

variable {folder : Path} {r r' : Text}

theorem referencePath_of_absolute (folder : Path) (h : (r.map slashed).head? = some '/') :
    referencePath folder r = ⟨r.map slashed⟩ := by
  have habsolute : (⟨r.map slashed⟩ : Path).isAbsolute = true := beq_iff_eq.2 h
  rw [referencePath, Path.join, if_pos habsolute]

/-- **A relative reference adds its components to those of the folder.** -/
theorem components_referencePath_of_relative (folder : Path)
    (h : (r.map slashed).head? ≠ some '/') :
    (referencePath folder r).components =
      seenFrom folder.components (⟨r.map slashed⟩ : Path).components := by
  have hrelative : (⟨r.map slashed⟩ : Path).isAbsolute = false := beq_eq_false_iff_ne.2 h
  by_cases hfolder : folder.text = []
  · have hnil : folder.components = [] := by
      rw [Path.components_eq, hfolder]
      rfl
    rw [referencePath, Path.join_of_text_eq_nil hfolder, hnil, seenFrom_nil]
  · have hne : folder.components ≠ [] := mt Path.text_eq_nil_of_components hfolder
    rw [referencePath, Path.components_join hfolder hrelative,
      Path.seenFrom_components hne hrelative]

/-- **What a reference addresses depends on its components only.** -/
theorem components_referencePath_congr (folder : Path)
    (h : (⟨r.map slashed⟩ : Path).components = (⟨r'.map slashed⟩ : Path).components) :
    (referencePath folder r).components = (referencePath folder r').components := by
  have habsolute : (r.map slashed).head? = some '/' ↔ (r'.map slashed).head? = some '/' := by
    have hiff := Path.isAbsolute_iff (p := ⟨r.map slashed⟩)
    rw [h, ← Path.isAbsolute_iff, Path.isAbsolute, Path.isAbsolute, beq_iff_eq, beq_iff_eq] at hiff
    exact hiff
  by_cases hr : (r.map slashed).head? = some '/'
  · rw [referencePath_of_absolute folder hr, referencePath_of_absolute folder (habsolute.1 hr), h]
  · rw [components_referencePath_of_relative folder hr,
      components_referencePath_of_relative folder (mt habsolute.2 hr), h]

end Reference

/-! ## Spellings -/

def isSeparator (c : Char) : Bool := c == '/' || c == '\\'

theorem slashed_of_isSeparator {c : Char} (h : isSeparator c = true) : slashed c = '/' := by
  rw [isSeparator, Bool.or_eq_true, beq_iff_eq, beq_iff_eq] at h
  rcases h with rfl | rfl <;> rfl

/-- The ways to change the spelling of a reference at one place. -/
inductive Respelling : Text → Text → Prop
  /-- The other slash. -/
  | slash {a b : Char} {u v : Text} : isSeparator a = true → isSeparator b = true →
      Respelling (u ++ a :: v) (u ++ b :: v)
  /-- A separator once more. -/
  | separator {a b : Char} {u v : Text} : isSeparator a = true → isSeparator b = true →
      Respelling (u ++ a :: b :: v) (u ++ a :: v)
  /-- A `.` between separators. -/
  | dot {a b : Char} {u v : Text} : isSeparator a = true → isSeparator b = true →
      Respelling (u ++ a :: '.' :: b :: v) (u ++ a :: v)

theorem Respelling.components_eq {r r' : Text} (h : Respelling r r') :
    (⟨r.map slashed⟩ : Path).components = (⟨r'.map slashed⟩ : Path).components := by
  cases h with
  | slash ha hb => simp only [List.map_append, List.map_cons, slashed_of_isSeparator, ha, hb]
  | @separator a b u v ha hb =>
    simp only [List.map_append, List.map_cons, slashed_of_isSeparator, ha, hb]
    exact Path.components_insert (p := []) rfl List.not_mem_nil _ _
  | @dot a b u v ha hb =>
    simp only [List.map_append, List.map_cons, slashed_of_isSeparator, ha, hb]
    exact Path.components_insert (p := ['.']) rfl (by decide) _ _

/-- **What a reference addresses.** Let `n` be the reference with `/` for every separator. If it
starts with `/`, it is the path itself. Otherwise the path has the components of the script without
the last, then those of `n`, of which a `.` at the start counts only if it comes first of all. Other
slashes, separators that are repeated and pieces `.` between separators, wherever and however many
of them, do not change what is addressed. -/
theorem referencePath_addresses (s : Script) (r : Text) :
    let n : Path := ⟨r.map slashed⟩
    (n.text.head? = some '/' → referencePath s.folder r = n) ∧
      (n.text.head? ≠ some '/' → (referencePath s.folder r).components =
        seenFrom s.path.components.dropLast n.components) ∧
      ∀ r', Relation.EqvGen Respelling r r' →
        (referencePath s.folder r).components = (referencePath s.folder r').components := by
  intro n
  refine ⟨fun h => referencePath_of_absolute s.folder h, fun h => ?_, fun r' h => ?_⟩
  · rw [components_referencePath_of_relative s.folder h, Script.folder, Path.components_folder]
  · induction h with
    | rel r r' h => exact components_referencePath_congr s.folder h.components_eq
    | refl r => rfl
    | symm r r' _ ih => exact ih.symm
    | trans r r' r'' _ _ ih ih' => exact ih.trans ih'

/-- A `.` in front counts beside a script without a folder, and not below one. -/
example :
    let r : Text := ".\\\\a/./b".toList
    (referencePath (Script.folder ⟨⟨"m".toList⟩, []⟩) r).components =
        [.here, .name ['a'], .name ['b']] ∧
      (referencePath (Script.folder ⟨⟨"d//m/".toList⟩, []⟩) r).components =
        [.name ['d'], .name ['a'], .name ['b']] := by
  decide

end ScriptLexer
