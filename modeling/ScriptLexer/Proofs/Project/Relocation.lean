import ScriptLexer.Proofs.Project.Loading
import ScriptLexer.Proofs.Reference.Variants
import ScriptLexer.Proofs.Tokens.Simulation

/-!
# Relocated projects

Two roots that lead to the same folder without links: one project, wherever it is and however its
roots are spelled.

**The same folder** (`Disk.SameBelow`). The same nodes are below both locations, and the same folders
cannot be listed.

**The same limits** (`Disk.TakesAlike`, `Disk.TakesReferencesAlike`). The host may refuse paths below
one root that it takes below the other, as too long. This matters for scripts, for folders that are
named like scripts or cannot be listed, for the folders that lead to these, and for the files that
references mean. All other paths may differ.

**Loading** (`isFound_iff_of_isRoot`, `loadScripts_relocated`). Below both roots the same names are
found, and the same texts are read.

**Tokenizing** (`tokenize_relocated`). A local reference means the same names below both roots,
and so do its candidates; what they lead to is the same, so the outcomes match.

`loadScripts_relocate` is the whole. `loadScripts_longRoot` is a root of a folder that loads as `p`
but not as `p` with thousands of separators behind it.
-/

namespace ScriptLexer

/-! ## The same folder below two roots -/

/-- Errors of the same sort; their paths may differ. -/
def ErrorKind.SameCode (kind kind' : ErrorKind) : Prop := kind.code = kind'.code

/-- The same script below two roots. -/
structure Script.Relocated (root root' : Path) (s s' : Script) : Prop where
  text : s.text = s'.text
  path : ∃ names, names ≠ [] ∧ (∀ n ∈ names, IsEntryName n) ∧
    s.path = Disk.pathBelow root names ∧ s'.path = Disk.pathBelow root' names

theorem forall₂_of_common {α β γ : Type} {R : α → β → Prop} {R' : α → γ → Prop} {xs : List α}
    {ys : List β} {zs : List γ} (h : List.Forall₂ R xs ys) (h' : List.Forall₂ R' xs zs) :
    List.Forall₂ (fun y z => ∃ x ∈ xs, R x y ∧ R' x z) ys zs := by
  induction h generalizing zs with
  | nil =>
    cases h'
    exact .nil
  | @cons x y xs ys hxy _ ih =>
    cases h' with
    | cons hxz h' =>
      refine .cons ⟨x, List.mem_cons_self, hxy, hxz⟩ ((ih h').imp ?_)
      rintro y' z' ⟨x', hx', hR⟩
      exact ⟨x', List.mem_cons_of_mem x hx', hR⟩

section

variable {d d' : Disk} {root root' : Path} {l l' : Location} {c : Config}

theorem hasExtension_pathBelow {names : List Text} (hne : names ≠ [])
    (hnames : ∀ n ∈ names, IsEntryName n) (root root' : Path) (extension : Text) :
    (Disk.pathBelow root names).hasExtension extension =
      (Disk.pathBelow root' names).hasExtension extension := by
  obtain ⟨front, n, rfl⟩ := (List.eq_nil_or_concat' names).resolve_left hne
  have hname := (Disk.isBelow_pathBelow root hne hnames).fileName?_eq
  have hname' := (Disk.isBelow_pathBelow root' hne hnames).fileName?_eq
  rw [Path.hasExtension, Path.hasExtension, Path.extension?, Path.extension?, hname, hname']

/-- The same nodes are below two locations, and the same folders that cannot be listed. -/
structure Disk.SameBelow (d : Disk) (l : Location) (d' : Disk) (l' : Location) : Prop where
  node : ∀ names, d.node? (l ++ names) = d'.node? (l' ++ names)
  listed : ∀ names, d.node? (l ++ names) = some .folder →
    (d.break? (names.length + 1) (l ++ names) = none ↔
      d'.break? (names.length + 1) (l' ++ names) = none)

/-- The names lead to something that is named like a script, or to a folder that cannot be listed. -/
def Disk.Matters (d : Disk) (extension : Text) (root : Path) (l : Location) (names : List Text) :
    Prop :=
  ∃ x, d.node? (l ++ names) = some x ∧
    (names ≠ [] ∧ (pathBelow root names).hasExtension extension = true ∨
      x = .folder ∧ d.break? (names.length + 1) (l ++ names) ≠ none)

/-- The host takes the path of what matters below both roots or below neither, and so the paths of
the folders that lead there. -/
def Disk.TakesAlike (d : Disk) (extension : Text) (root : Path) (l : Location) (d' : Disk)
    (root' : Path) : Prop :=
  ∀ front back, d.Matters extension root l (front ++ back) →
    (d.Takes (pathBelow root front) ↔ d'.Takes (pathBelow root' front))

variable (h : d.IsRoot root l) (h' : d'.IsRoot root' l') (hsame : d.SameBelow l d' l')
  (htakes : d.TakesAlike c.extension root l d' root')

include h h' hsame htakes

/-- **The same scripts are found.** -/
theorem isFound_iff_of_isRoot {names : List Text} :
    d.IsFound c.extension root names ↔ d'.IsFound c.extension root' names := by
  rw [h.isFound_iff, h'.isFound_iff, ← hsame.node]
  apply and_congr_right
  intro hne
  by_cases hx : ∃ x, d.node? (l ++ names) = some x
  · obtain ⟨x, hx⟩ := hx
    rw [hasExtension_pathBelow hne (h.isEntryName hx) root' root]
    by_cases hextension : (Disk.pathBelow root names).hasExtension c.extension = true
    · have hlike (front back : List Text) (he : names = front ++ back) :
          d.Takes (Disk.pathBelow root front) ↔ d'.Takes (Disk.pathBelow root' front) :=
        htakes front back (he ▸ ⟨x, hx, .inl ⟨hne, hextension⟩⟩)
      have hfront : (∀ front back, back ≠ [] → names = front ++ back →
            d.Takes (Disk.pathBelow root front)) ↔
          ∀ front back, back ≠ [] → names = front ++ back →
            d'.Takes (Disk.pathBelow root' front) :=
        forall₂_congr fun front back => forall₂_congr fun _ he => hlike front back he
      simp only [hlike names [] (List.append_nil _).symm, hfront]
    · simp only [hextension, Bool.false_eq_true, and_false]
  · rw [not_exists] at hx
    simp only [hx, false_and, exists_false]

/-- **The same folders are listed to their ends.** -/
theorem isListable_iff_of_isRoot : d.IsListable root ↔ d'.IsListable root' := by
  rw [h.isListable_iff, h'.isListable_iff]
  apply forall_congr'
  intro names
  rw [← hsame.node]
  apply imp_congr_right
  intro hfolder
  rw [← hsame.listed names hfolder]
  by_cases hbreak : d.break? (names.length + 1) (l ++ names) = none
  · simp only [hbreak, implies_true]
  · have hmatters : d.Matters c.extension root l names := ⟨_, hfolder, .inr ⟨rfl, hbreak⟩⟩
    have hfront : (∀ front back, names = front ++ back → d.Takes (Disk.pathBelow root front)) ↔
        ∀ front back, names = front ++ back → d'.Takes (Disk.pathBelow root' front) :=
      forall₂_congr fun front back => forall_congr' fun he => htakes front back (he ▸ hmatters)
    rw [hfront]

/-- **The same texts are read.** -/
theorem read_eq_ok_iff_of_isRoot {names : List Text} (hfound : d.IsFound c.extension root names)
    {text : Text} :
    d.fileSystem.read (Disk.pathBelow root names) = .ok text ↔
      d'.fileSystem.read (Disk.pathBelow root' names) = .ok text := by
  obtain ⟨hne, ⟨x, hx, -⟩, -, hextension⟩ := h.isFound_iff.1 hfound
  have hnames := h.isEntryName hx
  have hmatters : d.Matters c.extension root l (names ++ []) :=
    (List.append_nil names).symm ▸ ⟨x, hx, .inl ⟨hne, hextension⟩⟩
  have hlike := htakes names [] hmatters
  rw [Disk.read_eq_ok_iff, Disk.read_eq_ok_iff]
  simp only [h.hasText_iff hne hnames, h'.hasText_iff hne hnames, hsame.node, hlike]

theorem exists_loadScripts_iff_of_isRoot (hc : c.IsValid) :
    (∃ ss, loadScripts d c root = .ok ss) ↔ ∃ ss', loadScripts d' c root' = .ok ss' := by
  rw [exists_loadScripts_eq_ok_iff hc h.tree, exists_loadScripts_eq_ok_iff hc h'.tree,
    isListable_iff_of_isRoot h h' hsame htakes]
  apply and_congr_right
  intro _
  simp only [← isFound_iff_of_isRoot h h' hsame htakes, Disk.isReadable_iff]
  apply forall₂_congr
  intro names hfound
  simp only [read_eq_ok_iff_of_isRoot h h' hsame htakes hfound]

/-- **The same scripts are loaded.** -/
theorem loadScripts_relocated (hc : c.IsValid)
    {ss ss' : List Script} (hss : loadScripts d c root = .ok ss)
    (hss' : loadScripts d' c root' = .ok ss') :
    List.Forall₂ (Script.Relocated root root') ss ss' := by
  obtain ⟨found, hfound, hss⟩ := (loadScripts_eq_ok_iff hc).1 hss
  obtain ⟨found', hfound', hss'⟩ := (loadScripts_eq_ok_iff hc).1 hss'
  have hmem (names : List Text) : names ∈ found ↔ d.IsFound c.extension root names :=
    Disk.mem_scripts h.tree hfound
  obtain rfl : found' = found := by
    apply Disk.eq_of_ascending (Disk.sorted_scripts h'.tree hfound')
      (Disk.sorted_scripts h.tree hfound)
    intro names
    rw [hmem, Disk.mem_scripts h'.tree hfound', isFound_iff_of_isRoot h h' hsame htakes]
  refine (forall₂_of_common hss hss').imp ?_
  rintro s s' ⟨names, hnames, ⟨hpath, hread⟩, hpath', hread'⟩
  have hfound := (hmem names).1 hnames
  obtain ⟨hne, ⟨x, hx, -⟩, -⟩ := h.isFound_iff.1 hfound
  have htext := (read_eq_ok_iff_of_isRoot h h' hsame htakes hfound).1 hread
  rw [hread'] at htext
  exact ⟨(Except.ok.inj htext).symm, names, hne, h.isEntryName hx, hpath, hpath'⟩

/-! ## References -/

omit htakes in
/-- **Paths with the same names below both roots are the same file**, or none, if the host takes both
or neither. -/
theorem pathsMatch_of_isRoot {q q' : Path} {names : List Text}
    (hq : q.IsBelow root.components names) (hq' : q'.IsBelow root'.components names)
    (hlike : ∀ bytes, d.node? (l ++ names) = some (.file bytes) → (d.Takes q ↔ d'.Takes q')) :
    d.fileSystem.PathsMatch ErrorKind.SameCode d'.fileSystem q q' := by
  obtain ⟨j, hroot⟩ := h.leadTo
  obtain ⟨j', hroot'⟩ := h'.leadTo
  have hfind (bytes : List UInt8) :
      d.find q = .ok (.file bytes) ↔ d'.find q' = .ok (.file bytes) := by
    rw [hroot.find_eq_file_iff h.tree h.linkFree hq.components hq.names hq.endsInName,
      hroot'.find_eq_file_iff h'.tree h'.linkFree hq'.components hq'.names hq'.endsInName,
      ← hsame.node]
    exact and_congr_left (hlike bytes)
  constructor
  · rw [Bool.eq_iff_iff]
    simp only [Disk.fileSystem, Disk.isFile_eq_true_iff, hfind]
  · intro hfile
    obtain ⟨bytes, hbytes⟩ := Disk.isFile_eq_true_iff.1 hfile
    have hbytes' := (hfind bytes).1 hbytes
    simp only [FileSystem.answer, Disk.fileSystem, Disk.readText, Disk.readBytes, hbytes, hbytes']
    cases Utf8.decode? bytes with
    | some t => exact .text _
    | none => exact .error rfl

end

/-- The host takes the paths of the files that references in the scripts may mean under both roots
or under neither. -/
def Disk.TakesReferencesAlike (d : Disk) (dialect : Text) (root : Path) (l : Location)
    (ss : List Script) (d' : Disk) (root' : Path) (ss' : List Script) : Prop :=
  ∀ s ∈ ss, ∀ s' ∈ ss', Script.Relocated root root' s s' →
    ∀ body, .reference body ∈ (lex s.text).lexemes →
      ∀ qs qs', candidates dialect (referencePath s.folder body) = .ok qs →
        candidates dialect (referencePath s'.folder body) = .ok qs' →
        ∀ names bytes, d.node? (l ++ names) = some (.file bytes) →
          ∀ q ∈ qs, ∀ q' ∈ qs', q.IsBelow root.components names →
            q'.IsBelow root'.components names → (d.Takes q ↔ d'.Takes q')

theorem Path.IsLocal.isBelow_referencePath {root : Path} (hroot : root.text ≠ []) {s : Script}
    {names : List Text} (hne : names ≠ []) (hnames : ∀ n ∈ names, IsEntryName n)
    (hs : s.path = Disk.pathBelow root names) {body : Text}
    (hbody : (⟨body.map slashed⟩ : Path).IsLocal) :
    (referencePath s.folder body).IsBelow root.components
      (names.dropLast ++ (⟨body.map slashed⟩ : Path).steps) := by
  have hfolder : s.folder.components = root.components ++ names.dropLast.map .name := by
    rw [Script.folder, hs]
    exact (Disk.isBelow_pathBelow root hne hnames).components_folder hne
  have hnil : s.folder.text ≠ [] := by
    intro hnil
    have hempty : s.folder.components = [] := by rw [components_eq, hnil]; rfl
    rw [hfolder] at hempty
    exact hroot (text_eq_nil_of_components (List.append_eq_nil_iff.1 hempty).1)
  have hbelow := hbody.isBelow_join hnil
  rw [hfolder] at hbelow
  exact hbelow.of_append fun n hn => (hnames n (List.dropLast_subset _ hn)).isName

theorem forall₂_imp_of_mem {α β : Type} {R T : α → β → Prop} {xs : List α} {ys : List β}
    (h : List.Forall₂ R xs ys) (himp : ∀ x ∈ xs, ∀ y ∈ ys, R x y → T x y) :
    List.Forall₂ T xs ys := by
  rw [List.forall₂_iff_zip] at h ⊢
  refine ⟨h.1, fun hxy => ?_⟩
  obtain ⟨hx, hy⟩ := List.of_mem_zip hxy
  exact himp _ hx _ hy (h.2 hxy)

section

variable {d d' : Disk} {root root' : Path} {l l' : Location} {c : Config}

/-- **Scripts of a relocated project have matching outcomes**, if their references are local. -/
theorem tokenize_relocated (h : d.IsRoot root l) (h' : d'.IsRoot root' l')
    (hsame : d.SameBelow l d' l') (hc : c.IsValid)
    {ss ss' : List Script} (hss : List.Forall₂ (Script.Relocated root root') ss ss')
    (hlocal : ∀ s ∈ ss, ∀ body, .reference body ∈ (lex s.text).lexemes →
      (⟨body.map slashed⟩ : Path).IsLocal)
    (htakes : d.TakesReferencesAlike c.dialect root l ss d' root' ss') :
    ((⟨c.dialect, d.fileSystem⟩ : Resolver).tokenize ss).value.Matches
      (Script.Relocated root root') ErrorKind.SameCode
      ((⟨c.dialect, d'.fileSystem⟩ : Resolver).tokenize ss').value := by
  have hscripts : List.Forall₂
      (fun s s' => (Script.Relocated root root' s s' ∧ s' ∈ ss') ∧ s.text = s'.text) ss ss' :=
    forall₂_imp_of_mem hss fun s _ s' hs' hrelocated => ⟨⟨hrelocated, hs'⟩, hrelocated.text⟩
  refine (Resolver.tokenize_matches (K := ErrorKind.SameCode) (fun _ => rfl) hscripts ?_).imp
    fun _ _ => And.left
  rintro s s' body ⟨hrelocated, hs'⟩ hscanned
  obtain ⟨hs, hreference⟩ := Resolver.mem_of_mem_scanned hscanned
  obtain ⟨names, hne, hnames, hpath, hpath'⟩ := hrelocated.path
  have hbody := hlocal s hs body hreference
  have hbelow := hbody.isBelow_referencePath h.text_ne_nil hne hnames hpath
  have hbelow' := hbody.isBelow_referencePath h'.text_ne_nil hne hnames hpath'
  have hsteps : names.dropLast ++ (⟨body.map slashed⟩ : Path).steps ≠ [] := by
    simp [hbody.steps_ne_nil]
  have hmatch := candidates_of_isBelow hc.slash_notMem hsteps hbelow hbelow'
  generalize hqs : candidates c.dialect (referencePath s.folder body) = answer at hmatch
  generalize hqs' : candidates c.dialect (referencePath s'.folder body) = answer' at hmatch
  cases hmatch with
  | refused => exact Resolver.answer_of_refused hqs hqs' rfl
  | candidates hpairs =>
    refine Resolver.answer_of_candidates hqs hqs' rfl (forall₂_imp_of_mem hpairs ?_)
    rintro q hq q' hq' ⟨below, hq₁, hq₂⟩
    refine pathsMatch_of_isRoot h h' hsame hq₁ hq₂ fun bytes hbytes => ?_
    exact htakes s hs s' hs' hrelocated body hreference _ _ hqs hqs' below bytes hbytes q hq q' hq'
      hq₁ hq₂

/-- The outcomes of two runs over scripts below two roots differ in their paths only. -/
structure Outcome.Relocated (root root' : Path) (o o' : Outcome) : Prop where
  /-- The tokens are alike, and of scripts with the same number. -/
  tokens : List.Forall₂
    (fun x y => x.1 = y.1 ∧ Token.Matches (Script.Relocated root root') x.2 y.2)
    (Outcome.numbered 0 o.tokens) (Outcome.numbered 0 o'.tokens)
  error : Option.Rel (LexicalError.Matches (Script.Relocated root root') ErrorKind.SameCode)
    o.error o'.error
  /-- So the error is in the script with the same number. -/
  finished : o.finished = o'.finished

/-- **Relocating a project changes nothing but paths**, where the host takes paths below both roots
alike. -/
theorem loadScripts_relocate (hc : c.IsValid) (h : d.IsRoot root l) (h' : d'.IsRoot root' l')
    (hsame : d.SameBelow l d' l') (htakes : d.TakesAlike c.extension root l d' root') :
    ((∃ ss, loadScripts d c root = .ok ss) ↔ ∃ ss', loadScripts d' c root' = .ok ss') ∧
      ∀ ss ss', loadScripts d c root = .ok ss → loadScripts d' c root' = .ok ss' →
        List.Forall₂ (Script.Relocated root root') ss ss' ∧
          ((∀ s ∈ ss, ∀ body, .reference body ∈ (lex s.text).lexemes →
              (⟨body.map slashed⟩ : Path).IsLocal) →
            d.TakesReferencesAlike c.dialect root l ss d' root' ss' →
            ∃ r r', Resolver.ofConfig c d.fileSystem = .ok r ∧
              Resolver.ofConfig c d'.fileSystem = .ok r' ∧
              Outcome.Relocated root root' (r.tokenize ss).value (r'.tokenize ss').value) := by
  refine ⟨exists_loadScripts_iff_of_isRoot h h' hsame htakes hc, ?_⟩
  intro ss ss' hss hss'
  have hscripts := loadScripts_relocated h h' hsame htakes hc hss hss'
  refine ⟨hscripts, ?_⟩
  intro hlocal hreferences
  have hmatch := tokenize_relocated h h' hsame hc hscripts hlocal hreferences
  refine ⟨_, _, Resolver.ofConfig_eq hc _, Resolver.ofConfig_eq hc _, ?_⟩
  exact ⟨Outcome.Matches.numbered hmatch.tokens 0, hmatch.error, hmatch.finished_eq⟩

end

/-- A project in the working folder, and the same in a folder that its root enters twice. -/
theorem loadScripts_relocate_enteredTwice :
    let d : Disk :=
      { nodes := [([['x', '.', 'e']], .file [0x3c, 0x79, 0x3e, 0x61]), ([['y']], .file [0x7a])]
        working := [] }
    let d' : Disk :=
      { nodes :=
          [([['p']], .folder), ([['p'], ['x', '.', 'e']], .file [0x3c, 0x79, 0x3e, 0x61]),
            ([['p'], ['y']], .file [0x7a])]
        working := [] }
    let c : Config := ⟨['D'], ['e']⟩
    let root : Path := ⟨['.']⟩
    let root' : Path := ⟨['p', '/', '.', '.', '/', 'p', '/']⟩
    let text : Text := ['<', 'y', '>', 'a']
    let ss : List Script := [⟨⟨['.', '/', 'x', '.', 'e']⟩, text⟩]
    let ss' : List Script := [⟨⟨['p', '/', '.', '.', '/', 'p', '/', 'x', '.', 'e']⟩, text⟩]
    loadScripts d c root = .ok ss ∧ loadScripts d' c root' = .ok ss' ∧
      ∃ r r', Resolver.ofConfig c d.fileSystem = .ok r ∧
        Resolver.ofConfig c d'.fileSystem = .ok r' ∧
        Outcome.Relocated root root' (r.tokenize ss).value (r'.tokenize ss').value := by
  intro d d' c root root' text ss ss'
  have hc : c.IsValid := ⟨rfl, rfl, rfl⟩
  have h : d.IsRoot root [] :=
    ⟨by decide +kernel, Disk.exists_leads_of_walk (k := 0) (by decide) (by decide) rfl rfl, rfl,
      Disk.linkFree_of_forall (by decide +kernel) _⟩
  have h' : d'.IsRoot root' [['p']] :=
    ⟨by decide +kernel, Disk.exists_leads_of_walk (k := 0) (by decide) (by decide) rfl rfl, rfl,
      Disk.linkFree_of_forall (by decide +kernel) _⟩
  have hsame : d.SameBelow [] d' [['p']] := by
    refine ⟨fun names => ?_, fun names _ => iff_of_true rfl rfl⟩
    cases names <;> simp [d, d', Disk.node?, List.lookup_cons]
  have hall : d.takesAll 2 root = true := by decide +kernel
  have hall' : d'.takesAll 2 root' = true := by decide +kernel
  have htakes : d.TakesAlike c.extension root [] d' root' := by
    rintro front back ⟨x, hx, -⟩
    exact iff_of_true (h.takes_of_takesAll hall hx)
      (h'.takes_of_takesAll hall' (hsame.node (front ++ back) ▸ hx))
  have hload : loadScripts d c root = .ok ss := by decide +kernel
  have hload' : loadScripts d' c root' = .ok ss' := by decide +kernel
  have hlexemes : (lex text).lexemes = [.reference ['y'], .word ['a']] := by decide +kernel
  refine ⟨hload, hload', ((loadScripts_relocate hc h h' hsame htakes).2 ss ss' hload hload').2 ?_ ?_⟩
  · intro s hs body hbody
    obtain rfl := List.mem_singleton.1 hs
    rw [hlexemes] at hbody
    obtain rfl : body = ['y'] := by simpa using hbody
    exact Path.IsPlain.isLocal (by decide)
  · intro s hs s' hs' _ body hbody qs qs' hqs hqs' _ _ _ q hq q' hq' _ _
    obtain rfl := List.mem_singleton.1 hs
    obtain rfl := List.mem_singleton.1 hs'
    rw [hlexemes] at hbody
    obtain rfl : body = ['y'] := by simpa using hbody
    cases hqs
    cases hqs'
    obtain rfl := List.mem_singleton.1 hq
    obtain rfl := List.mem_singleton.1 hq'
    have hlocate : d.locate ⟨['.', '/', 'y']⟩ = .ok [['y']] := by decide +kernel
    have hlocate' : d'.locate ⟨['p', '/', '.', '.', '/', 'p', '/', 'y']⟩ = .ok [['p'], ['y']] := by
      decide +kernel
    exact iff_of_true (Disk.locate_eq_ok_iff.1 hlocate).1 (Disk.locate_eq_ok_iff.1 hlocate').1

/-- A root spelled with so many separators that the host refuses the paths below it. -/
theorem loadScripts_longRoot :
    let d : Disk :=
      { nodes := [([['p']], .folder), ([['p'], ['x', '.', 'd', 's', 'l']], .file [0x61])]
        working := [] }
    let c : Config := ⟨['D'], ['d', 's', 'l']⟩
    let root : Path := ⟨['p']⟩
    let root' : Path := ⟨'p' :: List.replicate 4090 '/'⟩
    (c.IsValid ∧ d.IsTree ∧ d.locate root = .ok [['p']] ∧ d.locate root' = .ok [['p']] ∧
        d.node? [['p']] = some .folder ∧ d.LinkFree [['p']]) ∧
      (∃ ss, loadScripts d c root = .ok ss) ∧ ¬∃ ss', loadScripts d c root' = .ok ss' := by
  intro d c root root'
  have hload : loadScripts d c root =
      .ok [⟨⟨['p', '/', 'x', '.', 'd', 's', 'l']⟩, ['a']⟩] := by
    decide +kernel
  have hload' : (loadScripts d c root').toBool = false := by decide +kernel
  refine ⟨⟨⟨rfl, rfl, rfl⟩, ?_, ?_, ?_, rfl, ?_⟩, ⟨_, hload⟩, ?_⟩
  · decide +kernel
  · decide +kernel
  · decide +kernel
  · exact Disk.linkFree_of_forall (by decide +kernel) _
  · rintro ⟨ss', hss'⟩
    rw [hss'] at hload'
    cases hload'

end ScriptLexer
