import ScriptLexer.Files.Memory
import ScriptLexer.Proofs.Reference.Lookup
import ScriptLexer.Proofs.Reference.Variants
import ScriptLexer.Script

/-!
# References below the folder of their script

A reference that neither starts at the root nor leads up is meant to stay below the folder of its
script. Which files are asked for is decided by the path that the reference is joined to, and the
variants of that path are named after its last name. Two things can be that last name:

* a name of the reference, if it has one. Then the variants are named after it, in a folder that is
  the folder of the script or one below it;
* the name of the folder itself, if the reference is empty or has nothing but separators and `.`.
  Then variants of the folder are looked for, **beside the folder and not below it**, if the folder
  is called like an `sql` file.

Main result: `asksFor_below_iff`, which says that the second is the only way out, and that it always
is one. `asksFor_outside` is the smallest such way: the text of a file that is not below the folder
stands for an empty reference.
-/

namespace ScriptLexer

/-! ## Files that are asked for -/

/-- The resolver probes or reads `q` to find the text of `p`. -/
def Resolver.AsksFor (r : Resolver) (p q : Path) : Prop :=
  .isFile q ∈ (r.resolve p).accesses ∨ .read q ∈ (r.resolve p).accesses

theorem Resolver.AsksFor.exists_candidates {r : Resolver} {p q : Path} (h : r.AsksFor p q) :
    ∃ ps, candidates r.dialect p = .ok ps ∧ q ∈ ps := by
  rw [AsksFor, accesses_resolve] at h
  have hlookup := r.lookup_resolve p
  generalize r.lookups p = accesses, (r.resolve p).value = answer at h hlookup
  cases hlookup with
  | refused _ => simp at h
  | missing hps _ => exact ⟨_, hps, by simpa using h⟩
  | @unreadable before after found _ hps _ _ _ | @read before after found _ hps _ _ _ =>
    refine ⟨_, hps, ?_⟩
    have hq : q ∈ before ∨ q = found := by
      rcases h with h | h
      · simpa using h
      · exact .inr (by simpa using h)
    simpa using hq.imp_right .inl

theorem Resolver.asksFor_of_candidates {r : Resolver} {p q : Path} {ps : List Path}
    (h : candidates r.dialect p = .ok (q :: ps)) : r.AsksFor p q := by
  rw [AsksFor, accesses_resolve, lookups, h]
  left
  cases hfile : r.files.isFile q with
  | true => simp [hfile]
  | false => cases hfound : ps.find? r.files.isFile <;> simp [hfile, hfound]

/-! ## Variants of a path -/

theorem prefix_of_mem_candidates {dialect : Text} (hdialect : '/' ∉ dialect) {p q : Path}
    {ps : List Path} {cs : List Component} (hps : candidates dialect p = .ok ps) (hq : q ∈ ps)
    (hcs : cs <+: p.folder.components) : cs <+: q.components := by
  have hfolder : q.folder.components = p.folder.components := by
    by_cases h : p.HasVariants
    · obtain ⟨stem, extension, hsql, hblank⟩ := h
      rw [candidates_of_not_isBlank hsql hblank] at hps
      obtain rfl := Except.ok.inj hps
      exact (parent?_of_isSql hdialect hsql hq).2
    · obtain rfl := eq_of_not_hasVariants h hps
      rw [List.mem_singleton.1 hq]
  rw [← hfolder, Path.components_folder] at hcs
  exact hcs.trans (List.dropLast_prefix _)

/-- **A path with variants is looked for outside of itself.** -/
theorem exists_asksFor_beside {r : Resolver} (hdialect : '/' ∉ r.dialect) {p : Path}
    (h : p.HasVariants) : ∃ q, r.AsksFor p q ∧ ¬ p.components <+: q.components := by
  obtain ⟨stem, extension, hsql, hblank⟩ := h
  have hps : candidates r.dialect p = _ := candidates_of_not_isBlank hsql hblank
  refine ⟨_, Resolver.asksFor_of_candidates hps, fun hprefix => ?_⟩
  obtain ⟨hname, hslash⟩ := isName_of_isSql hdialect hsql List.mem_cons_self
  have hp := Path.components_of_fileName? hsql.fileName
  have hvariant := Path.components_join_name (p := p.folder) hname hslash
  have heq := hprefix.eq_of_length (by rw [hp, hvariant, List.length_append, List.length_append]; rfl)
  have hdistinct := pairwise_candidates hdialect hps
  exact (List.pairwise_cons.1 hdistinct).1 p (by simp) heq.symm

/-! ## References -/

/-- The reference has a piece that is neither empty nor `.`. -/
def NamesEntry (r : Text) : Prop := ∃ n ∈ Path.pieces (r.map slashed), n ≠ [] ∧ n ≠ ['.']

instance (r : Text) : Decidable (NamesEntry r) :=
  inferInstanceAs (Decidable (∃ n ∈ Path.pieces (r.map slashed), n ≠ [] ∧ n ≠ ['.']))

theorem namesEntry_iff {r : Text} : NamesEntry r ↔ (⟨r.map slashed⟩ : Path).steps ≠ [] := by
  rw [Path.steps, Ne, List.filter_eq_nil_iff, NamesEntry]
  simp [Option.isSome_iff_ne_none, Path.component?_eq_none]

/-- **Behind a folder a reference adds its names.** -/
theorem components_referencePath {folder : Path} (hfolder : folder.text ≠ []) {r : Text}
    (hrelative : (r.map slashed).head? ≠ some '/')
    (hdown : ['.', '.'] ∉ Path.pieces (r.map slashed)) :
    (referencePath folder r).components =
      folder.components ++ (⟨r.map slashed⟩ : Path).steps.map .name := by
  have habsolute : (⟨r.map slashed⟩ : Path).isAbsolute = false := by
    rw [Path.isAbsolute, beq_eq_false_iff_ne]
    exact hrelative
  rw [referencePath, Path.components_join hfolder habsolute, Path.filterMap_pieces hdown]

/-- **References stay below the folder of their script, unless they name nothing in a folder that is
called like an `sql` file.** For every script, every configuration that can work and all files: of a
reference that is not absolute and has no `..`, everything that is probed or read is below the
folder of the script if and only if the reference has a piece that is a name, or the folder has no
variants. -/
theorem asksFor_below_iff {c : Config} (hc : c.validate = .ok ()) (fs : FileSystem) (s : Script)
    {r : Text} (hrelative : (r.map slashed).head? ≠ some '/')
    (hdown : ['.', '.'] ∉ Path.pieces (r.map slashed)) :
    (∀ q, (⟨c.dialect, fs⟩ : Resolver).AsksFor (referencePath s.folder r) q →
        s.folder.components <+: q.components) ↔
      NamesEntry r ∨ ¬ s.folder.HasVariants := by
  have hdialect : '/' ∉ c.dialect := (Config.validate_eq_ok_iff.1 hc).slash_notMem
  by_cases hfolder : s.folder.text = []
  · -- Everything is below the empty path, and it has no name.
    have hnil : s.folder.components = [] := by rw [Path.components_eq, hfolder]; rfl
    have hvariants : ¬ s.folder.HasVariants := by
      rintro ⟨stem, extension, hsql, -⟩
      have hlast := Path.components_of_fileName? hsql.fileName
      rw [hnil] at hlast
      simp at hlast
    simp [hnil, hvariants]
  have hp := components_referencePath hfolder hrelative hdown
  by_cases hnames : NamesEntry r
  · -- The candidates are named after a name of the reference.
    refine iff_of_true (fun q hq => ?_) (.inl hnames)
    obtain ⟨ps, hps, hmem⟩ := hq.exists_candidates
    have hsteps : (⟨r.map slashed⟩ : Path).steps.map Component.name ≠ [] := by
      simpa using namesEntry_iff.1 hnames
    apply prefix_of_mem_candidates hdialect hps hmem
    rw [Path.components_folder, hp, List.dropLast_append_of_ne_nil hsteps]
    exact List.prefix_append _ _
  · -- The reference is the folder itself.
    have hsame : (referencePath s.folder r).components = s.folder.components := by
      rw [hp, not_not.1 (mt namesEntry_iff.2 hnames), List.map_nil, List.append_nil]
    refine ⟨fun hbelow => .inr fun hvariants => ?_, fun h q hq => ?_⟩
    · obtain ⟨q, hq, hbeside⟩ :=
        exists_asksFor_beside (r := ⟨c.dialect, fs⟩) hdialect (hvariants.congr hsame.symm)
      rw [hsame] at hbeside
      exact hbeside (hbelow q hq)
    · obtain ⟨ps, hps, hmem⟩ := hq.exists_candidates
      have hvariants := h.resolve_left hnames
      obtain rfl := eq_of_not_hasVariants (fun h => hvariants (h.congr hsame)) hps
      simp [List.mem_singleton.1 hmem, hsame]

/-- A reference with a name, in a folder that is called like an `sql` file. -/
theorem asksFor_below_iff_named :
    let c : Config := ⟨['D'], ['e']⟩
    let s : Script := ⟨⟨"a.sql/m".toList⟩, []⟩
    let r : Text := ".\\b.sql\\.".toList
    c.validate = .ok () ∧ (r.map slashed).head? ≠ some '/' ∧
      ['.', '.'] ∉ Path.pieces (r.map slashed) ∧ NamesEntry r ∧
      ∀ fs q, (⟨c.dialect, fs⟩ : Resolver).AsksFor (referencePath s.folder r) q →
        s.folder.components <+: q.components := by
  intro c s r
  have hc : c.validate = .ok () := by decide
  have hrelative : (r.map slashed).head? ≠ some '/' := by decide
  have hdown : ['.', '.'] ∉ Path.pieces (r.map slashed) := by decide
  have hnames : NamesEntry r := by decide
  exact ⟨hc, hrelative, hdown, hnames,
    fun fs => (asksFor_below_iff hc fs s hrelative hdown).2 (.inl hnames)⟩

/-- **An empty reference can stand for a file that is not below the folder of the script.** In the
folder `a.sql` it is the folder that has variants, and `a.D.sql` beside it is read. -/
theorem asksFor_outside :
    let c : Config := ⟨['D'], ['e']⟩
    let s : Script := ⟨⟨"a.sql/m".toList⟩, "<>".toList⟩
    let q : Path := ⟨"a.D.sql".toList⟩
    let r : Resolver := ⟨c.dialect, (MemoryFiles.ofList [(q, ['x'])]).fileSystem⟩
    c.validate = .ok () ∧ (r.resolve (referencePath s.folder [])).value = .ok ['x'] ∧
      r.AsksFor (referencePath s.folder []) q ∧ ¬ s.folder.components <+: q.components := by
  refine ⟨by decide, by decide, .inl (by decide), by decide⟩

end ScriptLexer
