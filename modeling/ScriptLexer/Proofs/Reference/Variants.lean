import Mathlib.Data.List.Forall2
import ScriptLexer.Config.Basic
import ScriptLexer.Proofs.Path.Sibling
import ScriptLexer.Reference.Candidates

/-!
# Candidates are siblings

**The name** (`CutAtLastDot`). The last name of a path is a stem and an extension, which starts at the
last dot, or is empty. There is one way to cut it.

**The candidates.** Unless the extension is `.sql`, in any case of its letters, a path means itself.
A path to an `sql` file (`Path.IsSql`) means three files, if its stem is not blank: its two variants for
the dialect, and itself. What a path to an `sql` file addresses is its folder and its name, and its
variants are other names in that folder. A dialect of a configuration that can work holds no
separator, so a variant stays one name, whatever else the dialect holds.

**Main result** (`candidates_siblings`), for all spellings of the path. Two more properties are for
those who look files up: no two candidates are the same file (`pairwise_candidates`), and two paths
with the same names below different components have candidates in pairs (`candidates_of_isBelow`).
-/

namespace ScriptLexer

/-! ## Names and their extensions -/

/-- The name is the stem and the extension, cut before the last dot; without a dot it is all stem. -/
structure CutAtLastDot (name stem extension : Text) : Prop where
  whole : name = stem ++ extension
  last : extension = [] ∧ '.' ∉ name ∨ ∃ letters, extension = '.' :: letters ∧ '.' ∉ letters

theorem splitLastDot_append_dot {letters : Text} (h : '.' ∉ letters) (stem : Text) :
    splitLastDot (stem ++ '.' :: letters) = some (stem, letters) := by
  induction stem with
  | nil => simp [splitLastDot, splitLastDot_eq_none.2 h]
  | cons c stem ih => simp [splitLastDot, ih]

theorem exists_cutAtLastDot (name : Text) : ∃ stem extension, CutAtLastDot name stem extension := by
  cases h : splitLastDot name with
  | none => exact ⟨name, [], by simp, .inl ⟨rfl, splitLastDot_eq_none.1 h⟩⟩
  | some parts =>
    obtain ⟨hwhole, hdot⟩ := eq_of_splitLastDot h
    exact ⟨parts.1, '.' :: parts.2, hwhole, .inr ⟨parts.2, rfl, hdot⟩⟩

theorem CutAtLastDot.eq_of_dot {name stem extension stem' letters : Text}
    (h : CutAtLastDot name stem extension) (hname : name = stem' ++ '.' :: letters)
    (hdot : '.' ∉ letters) : stem = stem' ∧ extension = '.' :: letters := by
  rcases h.last with ⟨-, hnone⟩ | ⟨letters', rfl, hdot'⟩
  · rw [hname] at hnone
    exact absurd (by simp) hnone
  · have hsplit := splitLastDot_append_dot hdot stem'
    rw [← hname, h.whole, splitLastDot_append_dot hdot'] at hsplit
    obtain ⟨rfl, rfl⟩ := Prod.mk.inj (Option.some.inj hsplit)
    exact ⟨rfl, rfl⟩

/-! ## Files with variants -/

/-- The last name of the path is the stem, a dot, and the extension of files with variants. -/
structure Path.IsSql (p : Path) (stem extension : Text) : Prop where
  fileName : p.fileName? = some (stem ++ '.' :: extension)
  extension : Text.sameIgnoringCase extension variantExtension = true

theorem dot_notMem_of_sameIgnoringCase {extension : Text}
    (h : Text.sameIgnoringCase extension variantExtension = true) : '.' ∉ extension := by
  intro hdot
  have hmem : lowerAscii '.' ∈ extension.map lowerAscii := List.mem_map_of_mem hdot
  rw [Text.sameIgnoringCase_iff.1 h] at hmem
  exact absurd hmem (by decide)

theorem Path.fileName?_of_getD {p : Path} {stem letters : Text}
    (h : p.fileName?.getD [] = stem ++ '.' :: letters) :
    p.fileName? = some (stem ++ '.' :: letters) := by
  cases hfile : p.fileName? with
  | none => simp [hfile] at h
  | some name => rw [← h, hfile, Option.getD_some]

theorem Path.IsSql.congr {p q : Path} {stem extension : Text} (h : p.IsSql stem extension)
    (heq : p.fileName? = q.fileName?) : q.IsSql stem extension :=
  ⟨heq.symm.trans h.fileName, h.extension⟩

/-- The path names a file that may have variants. -/
def Path.HasVariants (p : Path) : Prop :=
  ∃ stem extension, p.IsSql stem extension ∧ stem.isBlank = false

theorem Path.HasVariants.congr {p q : Path} (h : p.HasVariants)
    (heq : p.components = q.components) : q.HasVariants := by
  obtain ⟨stem, extension, hsql, hblank⟩ := h
  exact ⟨stem, extension, hsql.congr (Path.fileName?_congr heq), hblank⟩

section Candidates

variable {dialect : Text} {p : Path} {stem extension : Text}

theorem candidates_of_isSql (h : p.IsSql stem extension) :
    candidates dialect p =
      if stem.isBlank then .error (.emptyFileName p)
      else .ok ((variantNames dialect stem extension).map (fun n => p.folder.join ⟨n⟩) ++ [p]) := by
  have hdot : '.' ∉ extension := dot_notMem_of_sameIgnoringCase h.extension
  rw [candidates, h.fileName, Option.getD_some, splitLastDot_append_dot hdot]
  simp [h.extension]

theorem candidates_of_isBlank (h : p.IsSql stem extension) (hblank : stem.isBlank = true) :
    candidates dialect p = .error (.emptyFileName p) := by
  rw [candidates_of_isSql h, if_pos hblank]

theorem candidates_of_not_isBlank (h : p.IsSql stem extension) (hblank : stem.isBlank = false) :
    candidates dialect p =
      .ok ((variantNames dialect stem extension).map (fun n => p.folder.join ⟨n⟩) ++ [p]) := by
  rw [candidates_of_isSql h, if_neg (by simp [hblank])]

theorem candidates_of_not_isSql (h : ¬ ∃ stem extension, p.IsSql stem extension) :
    candidates dialect p = .ok [p] := by
  rw [candidates]
  split
  · rfl
  · next stem extension hsplit =>
    split
    · rfl
    · next hsql =>
      have hname := Path.fileName?_of_getD (eq_of_splitLastDot hsplit).1
      exact absurd ⟨stem, extension, hname, by simpa using hsql⟩ h

theorem eq_of_not_hasVariants {ps : List Path} (h : ¬ p.HasVariants)
    (hps : candidates dialect p = .ok ps) : ps = [p] := by
  by_cases hsql : ∃ stem extension, p.IsSql stem extension
  · obtain ⟨stem, extension, hsql⟩ := hsql
    have hblank : stem.isBlank = true := by
      by_contra hblank
      exact h ⟨stem, extension, hsql, by simpa using hblank⟩
    rw [candidates_of_isBlank hsql hblank] at hps
    cases hps
  · rw [candidates_of_not_isSql hsql] at hps
    exact (Except.ok.inj hps).symm

end Candidates

/-! ## One folder, different names -/

section Siblings

variable {dialect : Text} {p : Path} {stem extension : Text} (hdialect : '/' ∉ dialect)
  (h : p.IsSql stem extension)

include hdialect h

/-- The variants are names: they are long, and hold no separator. -/
theorem isName_of_isSql {n : Text} (hn : n ∈ variantNames dialect stem extension) :
    Path.IsName n ∧ '/' ∉ n := by
  have hslash := Path.slash_notMem_of_fileName? h.fileName
  have hlength : extension.length = 3 := Text.length_eq_of_sameIgnoringCase h.extension
  simp only [List.mem_append, List.mem_cons, not_or] at hslash
  rcases List.mem_cons.1 hn with rfl | hn
  · refine ⟨Path.isName_of_length ?_, by simp [hslash, hdialect]⟩
    simp only [List.length_append, List.length_cons, hlength]
    omega
  · obtain rfl := List.mem_singleton.1 hn
    refine ⟨Path.isName_of_length ?_, by simp [hslash, hdialect]⟩
    simp only [List.length_append, List.length_cons, hlength]
    omega

theorem fileNames_of_isSql :
    ((variantNames dialect stem extension).map (fun n => p.folder.join ⟨n⟩) ++ [p]).map
        Path.fileName? =
      (variantNames dialect stem extension ++ [stem ++ '.' :: extension]).map some := by
  rw [List.map_append, List.map_append, List.map_map, List.map_singleton, h.fileName]
  congr 1
  apply List.map_congr_left
  intro n hn
  obtain ⟨hname, hslash⟩ := isName_of_isSql hdialect h hn
  exact Path.fileName?_sibling hname hslash

theorem parent?_of_isSql {q : Path}
    (hq : q ∈ (variantNames dialect stem extension).map (fun n => p.folder.join ⟨n⟩) ++ [p]) :
    q.parent? = some q.folder ∧ q.folder.components = p.folder.components := by
  rcases List.mem_append.1 hq with hq | hq
  · obtain ⟨n, hn, rfl⟩ := List.mem_map.1 hq
    obtain ⟨hname, hslash⟩ := isName_of_isSql hdialect h hn
    exact ⟨Path.parent?_of_fileName? (Path.fileName?_sibling hname hslash),
      Path.components_folder_sibling hname hslash⟩
  · rw [List.mem_singleton.1 hq]
    exact ⟨Path.parent?_of_fileName? h.fileName, rfl⟩

end Siblings

theorem pairwise_variantNames (dialect stem extension : Text) :
    (variantNames dialect stem extension ++ [stem ++ '.' :: extension]).Pairwise (· ≠ ·) := by
  have hne {s t : Text} (h : s.length ≠ t.length) : s ≠ t := by
    rintro rfl
    exact h rfl
  simp only [variantNames, List.cons_append, List.nil_append, List.pairwise_cons, List.mem_cons,
    List.not_mem_nil, or_false, forall_eq_or_imp, forall_eq, List.Pairwise.nil, and_true,
    IsEmpty.forall_iff, implies_true]
  refine ⟨⟨hne ?_, hne ?_⟩, hne ?_⟩ <;>
    simp only [List.length_append, List.length_cons] <;> omega

/-- **No two candidates are the same file.** -/
theorem pairwise_candidates {dialect : Text} (hdialect : '/' ∉ dialect) {p : Path} {ps : List Path}
    (hps : candidates dialect p = .ok ps) :
    ps.Pairwise fun q q' => q.components ≠ q'.components := by
  by_cases h : p.HasVariants
  · obtain ⟨stem, extension, hsql, hblank⟩ := h
    rw [candidates_of_not_isBlank hsql hblank] at hps
    obtain rfl := Except.ok.inj hps
    have hnames : ((variantNames dialect stem extension ++ [stem ++ '.' :: extension]).map
        some).Pairwise (· ≠ ·) :=
      (pairwise_variantNames dialect stem extension).map some
        fun _ _ hne heq => hne (Option.some.inj heq)
    rw [← fileNames_of_isSql hdialect hsql, List.pairwise_map] at hnames
    exact hnames.imp fun hne hsame => hne (Path.fileName?_congr hsame)
  · obtain rfl := eq_of_not_hasVariants h hps
    exact List.pairwise_singleton _ _

/-! ## The same names below different components -/

/-- The files that two paths may mean: both name no file, or they may mean the same names, each
below its own components. -/
inductive CandidatesMatch (cs cs' : List Component) :
    Except ErrorKind (List Path) → Except ErrorKind (List Path) → Prop
  | refused (p p' : Path) :
      CandidatesMatch cs cs' (.error (.emptyFileName p)) (.error (.emptyFileName p'))
  | candidates {qs qs' : List Path} :
      List.Forall₂ (fun q q' => ∃ names, q.IsBelow cs names ∧ q'.IsBelow cs' names) qs qs' →
      CandidatesMatch cs cs' (.ok qs) (.ok qs')

/-- **The candidates depend on the last name only**, and are all in one folder. -/
theorem candidates_of_isBelow {dialect : Text} (hdialect : '/' ∉ dialect) {p p' : Path}
    {cs cs' : List Component} {names : List Text} (hnames : names ≠ []) (h : p.IsBelow cs names)
    (h' : p'.IsBelow cs' names) :
    CandidatesMatch cs cs' (candidates dialect p) (candidates dialect p') := by
  obtain ⟨front, n, rfl⟩ := (List.eq_nil_or_concat' names).resolve_left hnames
  have hname : p.fileName? = p'.fileName? := h.fileName?_eq.trans h'.fileName?_eq.symm
  by_cases hsql : ∃ stem extension, p.IsSql stem extension
  · obtain ⟨stem, extension, hsql⟩ := hsql
    rw [candidates_of_isSql hsql, candidates_of_isSql (hsql.congr hname)]
    split
    · exact .refused p p'
    · refine .candidates (List.rel_append ?_ (.cons ⟨_, h, h'⟩ .nil))
      rw [List.forall₂_map_left_iff, List.forall₂_map_right_iff, List.forall₂_same]
      intro m hm
      obtain ⟨hmname, hslash⟩ := isName_of_isSql hdialect hsql hm
      exact ⟨_, h.sibling hmname hslash, h'.sibling hmname hslash⟩
  · have hsql' : ¬ ∃ stem extension, p'.IsSql stem extension := by
      rintro ⟨stem, extension, hsql'⟩
      exact hsql ⟨stem, extension, hsql'.congr hname.symm⟩
    rw [candidates_of_not_isSql hsql, candidates_of_not_isSql hsql']
    exact .candidates (.cons ⟨_, h, h'⟩ .nil)

/-! ## All paths -/

/-- The candidates of a path whose last name is cut into `stem` and `extension`. -/
structure HasCandidates (dialect : Text) (p : Path) (stem extension : Text) : Prop where
  /-- A file that is no `sql` file means itself. -/
  alone : Text.sameIgnoringCase extension ".sql".toList = false → candidates dialect p = .ok [p]
  /-- An `sql` file has a name besides its extension. -/
  refused : Text.sameIgnoringCase extension ".sql".toList = true → stem.isBlank = true →
    candidates dialect p = .error (.emptyFileName p)
  /-- An `sql` file means three files in one folder. -/
  variants : Text.sameIgnoringCase extension ".sql".toList = true → stem.isBlank = false →
    ∃ dotted bracketed, candidates dialect p = .ok [dotted, bracketed, p] ∧
      [dotted, bracketed, p].Pairwise (fun q q' => q.sameAs q' = false) ∧
      (∀ q ∈ [dotted, bracketed, p], ∃ f f', q.parent? = some f ∧ p.parent? = some f' ∧
        f.sameAs f' = true) ∧
      [dotted, bracketed, p].map Path.fileName? =
        [some (stem ++ '.' :: dialect ++ extension),
          some (stem ++ " (".toList ++ dialect ++ ')' :: extension), some (stem ++ extension)]

theorem sameIgnoringCase_dot (letters : Text) :
    Text.sameIgnoringCase ('.' :: letters) ".sql".toList =
      Text.sameIgnoringCase letters variantExtension := by
  simp [Text.sameIgnoringCase, variantExtension]

section Cut

variable {p : Path} {stem extension : Text}
  (hcut : CutAtLastDot (p.fileName?.getD []) stem extension)

include hcut

theorem isSql_of_cut (h : Text.sameIgnoringCase extension ".sql".toList = true) :
    ∃ letters, extension = '.' :: letters ∧ p.IsSql stem letters := by
  rcases hcut.last with ⟨rfl, -⟩ | ⟨letters, rfl, -⟩
  · exact absurd (Text.length_eq_of_sameIgnoringCase h) (by decide)
  · exact ⟨letters, rfl, Path.fileName?_of_getD hcut.whole,
      (sameIgnoringCase_dot letters).symm.trans h⟩

theorem not_isSql_of_cut (h : Text.sameIgnoringCase extension ".sql".toList = false) :
    ¬ ∃ stem' letters, p.IsSql stem' letters := by
  rintro ⟨stem', letters, hsql⟩
  have hname : p.fileName?.getD [] = stem' ++ '.' :: letters := by
    rw [hsql.fileName, Option.getD_some]
  obtain ⟨-, rfl⟩ := hcut.eq_of_dot hname (dot_notMem_of_sameIgnoringCase hsql.extension)
  rw [sameIgnoringCase_dot, hsql.extension] at h
  cases h

end Cut

/-- **The candidates of a path are siblings, in a fixed order.** For every path and every dialect of a
configuration that can work: the last name can be cut, and however it is cut, the candidates are the
path alone, or none because the stem is blank, or the two variants before the path itself. The three
are different files of one folder, and their names are put together from the stem, the dialect and
the extension as it is written. -/
theorem candidates_siblings {c : Config} (hc : c.validate = .ok ()) (p : Path) :
    (∃ stem extension, CutAtLastDot (p.fileName?.getD []) stem extension) ∧
      ∀ stem extension, CutAtLastDot (p.fileName?.getD []) stem extension →
        HasCandidates c.dialect p stem extension := by
  have hdialect : '/' ∉ c.dialect := (Config.validate_eq_ok_iff.1 hc).slash_notMem
  refine ⟨exists_cutAtLastDot _, fun stem extension hcut => ⟨fun hext => ?_, fun hext hblank => ?_,
    fun hext hblank => ?_⟩⟩
  · exact candidates_of_not_isSql (not_isSql_of_cut hcut hext)
  · obtain ⟨letters, -, hsql⟩ := isSql_of_cut hcut hext
    exact candidates_of_isBlank hsql hblank
  · obtain ⟨letters, rfl, hsql⟩ := isSql_of_cut hcut hext
    have hcandidates : candidates c.dialect p = _ := candidates_of_not_isBlank hsql hblank
    refine ⟨_, _, hcandidates, ?_, ?_, ?_⟩
    · refine (pairwise_candidates hdialect hcandidates).imp fun hne => ?_
      rw [← Bool.not_eq_true, Path.sameAs_iff]
      exact hne
    · intro q hq
      obtain ⟨hparent, hfolder⟩ := parent?_of_isSql hdialect hsql hq
      exact ⟨_, _, hparent, Path.parent?_of_fileName? hsql.fileName, Path.sameAs_iff.2 hfolder⟩
    · refine (fileNames_of_isSql hdialect hsql).trans ?_
      simp [variantNames]

/-- A path from the current folder with a `.` inside, a dot in its stem, capital letters and separators
behind; a dialect that is all dots. -/
theorem candidates_siblings_spelled :
    let c : Config := ⟨['.', '.'], ['e']⟩
    let p : Path := ⟨"./q/.//a.b.SqL//".toList⟩
    c.validate = .ok () ∧ CutAtLastDot (p.fileName?.getD []) "a.b".toList ".SqL".toList ∧
      HasCandidates c.dialect p "a.b".toList ".SqL".toList ∧
      candidates c.dialect p = .ok
        [⟨"./q/a.b....SqL".toList⟩, ⟨"./q/a.b (..).SqL".toList⟩, p] := by
  intro c p
  have hc : c.validate = .ok () := by decide
  have hcut : CutAtLastDot (p.fileName?.getD []) "a.b".toList ".SqL".toList :=
    ⟨by decide, .inr ⟨_, rfl, by decide⟩⟩
  exact ⟨hc, hcut, (candidates_siblings hc p).2 _ _ hcut, by decide⟩

end ScriptLexer
