import ScriptLexer.Proofs.Files.Memory
import ScriptLexer.Proofs.Reference.Lookup
import ScriptLexer.Proofs.Reference.Variants

/-!
# Which file wins when files change

Over files in memory, resolving a path takes the text of its first candidate that is in memory
(`MemoryFiles.firstText`), and nothing else can happen: a file that is there can be read.

**One insertion** (`firstText_insert_candidate`, `firstText_insert_other`). Inserting at a candidate
puts its text in front of all later candidates and behind all earlier ones. Inserting anywhere else
changes nothing. The first needs that no two candidates are the same file, since otherwise one
insertion would change an earlier candidate too.

**All insertions.** What is in memory is what was inserted, so a reference is missing if and only if
nothing was ever inserted at any of its candidates.

Main result: `resolve_insert`. Paths are compared by what they address throughout, so a candidate is
overwritten through any of its spellings.
-/

namespace ScriptLexer

namespace MemoryFiles

variable {m : MemoryFiles} {ps front back : List Path} {p q x : Path} {text : Text}

/-- The text of the first path that is a file. -/
def firstText (m : MemoryFiles) (ps : List Path) : Option Text :=
  ps.findSome? fun p => m.lookup p.components

@[simp] theorem firstText_nil : m.firstText [] = none := rfl

@[simp] theorem firstText_cons :
    m.firstText (p :: ps) = (m.lookup p.components).or (m.firstText ps) := by
  rw [firstText, List.findSome?_cons]
  cases m.lookup p.components <;> rfl

theorem firstText_append : m.firstText (front ++ back) = (m.firstText front).or (m.firstText back) :=
  List.findSome?_append

theorem firstText_eq_none_iff :
    m.firstText ps = none ↔ ∀ p ∈ ps, m.fileSystem.isFile p = false := by
  simp [firstText, fileSystem]

theorem firstText_eq_bind :
    m.firstText ps = (ps.find? m.fileSystem.isFile).bind fun p => m.lookup p.components := by
  induction ps with
  | nil => rfl
  | cons p ps ih =>
    rw [firstText_cons, ih]
    cases h : m.lookup p.components <;> simp [fileSystem, h]

theorem firstText_insert_other (h : ∀ p ∈ ps, p.components ≠ q.components) :
    (m.insert q text).firstText ps = m.firstText ps := by
  induction ps with
  | nil => rfl
  | cons p ps ih =>
    have hp : p.components ≠ q.components := h p List.mem_cons_self
    rw [firstText_cons, firstText_cons, lookup_insert, if_neg hp,
      ih fun p' hp' => h p' (List.mem_cons_of_mem p hp')]

/-- **An insertion at a path of the list is behind the earlier paths and in front of the later ones.** -/
theorem firstText_insert_candidate (hx : x.components = q.components)
    (h : ∀ p ∈ front, p.components ≠ q.components) :
    (m.insert q text).firstText (front ++ x :: back) = (m.firstText front).or (some text) := by
  have hhead : (m.insert q text).firstText (x :: back) = some text := by
    simp [firstText, lookup_insert, hx]
  rw [firstText_append, firstText_insert_other h, hhead]

end MemoryFiles

/-! ## One state of the memory -/

namespace Resolver

variable {dialect : Text} {m : MemoryFiles} {p : Path} {ps : List Path} {kind : ErrorKind}

theorem value_resolve_of_error {fs : FileSystem} (h : candidates dialect p = .error kind) :
    ((⟨dialect, fs⟩ : Resolver).resolve p).value = .error kind := by
  rw [resolve, h]
  rfl

/-- **Over files in memory, resolving takes the first text among the candidates.** -/
theorem value_resolve_memory (h : candidates dialect p = .ok ps) :
    ((⟨dialect, m.fileSystem⟩ : Resolver).resolve p).value =
      match m.firstText ps with
      | some text => .ok text
      | none => .error (.fileNotFound ps) := by
  rw [resolve, h, MemoryFiles.firstText_eq_bind]
  show (Traced.value (_ >>= _)) = _
  rw [Traced.value_bind, FileSystem.value_firstFile]
  cases hfound : ps.find? m.fileSystem.isFile with
  | none => rfl
  | some found =>
    -- A file that is there has a text.
    have hfile : m.fileSystem.isFile found = true := List.find?_some hfound
    obtain ⟨text, htext⟩ : ∃ text, m.lookup found.components = some text :=
      Option.isSome_iff_exists.1 hfile
    simp [FileSystem.fetch, MemoryFiles.fileSystem, htext]

theorem resolve_ne_fileUnreadable {path : Path} {reason : Text} :
    ((⟨dialect, m.fileSystem⟩ : Resolver).resolve p).value ≠
      .error (.fileUnreadable path reason) := by
  cases h : candidates dialect p with
  | error kind =>
    rw [value_resolve_of_error h, eq_emptyFileName_of_candidates h]
    simp
  | ok ps =>
    rw [value_resolve_memory h]
    cases m.firstText ps <;> simp

theorem resolve_eq_fileNotFound_iff :
    ((⟨dialect, m.fileSystem⟩ : Resolver).resolve p).value = .error (.fileNotFound ps) ↔
      candidates dialect p = .ok ps ∧ ∀ x ∈ ps, m.fileSystem.isFile x = false := by
  cases h : candidates dialect p with
  | error kind =>
    rw [value_resolve_of_error h, eq_emptyFileName_of_candidates h]
    simp
  | ok ps' =>
    rw [value_resolve_memory h, ← MemoryFiles.firstText_eq_none_iff]
    cases htext : m.firstText ps' with
    | none =>
      refine ⟨fun heq => ?_, fun ⟨hps, _⟩ => by rw [Except.ok.inj hps]⟩
      obtain rfl := ErrorKind.fileNotFound.inj (Except.error.inj heq)
      exact ⟨rfl, htext⟩
    | some text =>
      refine iff_of_false (by simp) fun ⟨hps, hnone⟩ => ?_
      rw [← Except.ok.inj hps, htext] at hnone
      cases hnone

end Resolver

/-! ## One more file -/

section Insertion

variable {dialect : Text} (hdialect : '/' ∉ dialect) {m : MemoryFiles} {p q : Path} {text : Text}

include hdialect

theorem ne_of_mem_front {front back : List Path} {x : Path}
    (hps : candidates dialect p = .ok (front ++ x :: back)) (hx : x.sameAs q = true) :
    ∀ y ∈ front, y.components ≠ q.components := by
  intro y hy
  rw [← Path.sameAs_iff.1 hx]
  exact (List.pairwise_append.1 (pairwise_candidates hdialect hps)).2.2 y hy x List.mem_cons_self

/-- **A file is found if no candidate before it is one.** -/
theorem resolve_insert_of_first {front back : List Path} {x : Path}
    (hps : candidates dialect p = .ok (front ++ x :: back)) (hx : x.sameAs q = true)
    (hfront : ∀ y ∈ front, m.fileSystem.isFile y = false) :
    ((⟨dialect, (m.insert q text).fileSystem⟩ : Resolver).resolve p).value = .ok text := by
  rw [Resolver.value_resolve_memory hps,
    MemoryFiles.firstText_insert_candidate (Path.sameAs_iff.1 hx) (ne_of_mem_front hdialect hps hx),
    MemoryFiles.firstText_eq_none_iff.2 hfront, Option.none_or]

/-- **Any other file changes nothing.** -/
theorem resolve_insert_of_behind {ps : List Path} (hps : candidates dialect p = .ok ps)
    (hbehind : ∀ front x back, ps = front ++ x :: back → x.sameAs q = true →
      ∃ y ∈ front, m.fileSystem.isFile y = true) :
    ((⟨dialect, (m.insert q text).fileSystem⟩ : Resolver).resolve p).value =
      ((⟨dialect, m.fileSystem⟩ : Resolver).resolve p).value := by
  rw [Resolver.value_resolve_memory hps, Resolver.value_resolve_memory hps]
  by_cases hcandidate : ∃ x ∈ ps, x.sameAs q = true
  · -- An earlier candidate keeps its text.
    obtain ⟨x, hmem, hx⟩ := hcandidate
    obtain ⟨front, back, rfl⟩ := List.append_of_mem hmem
    obtain ⟨y, hy, hfile⟩ := hbehind front x back rfl hx
    obtain ⟨found, hfound⟩ : ∃ found, m.firstText front = some found := by
      rw [← Option.ne_none_iff_exists', Ne, MemoryFiles.firstText_eq_none_iff]
      intro hnone
      rw [hnone y hy] at hfile
      cases hfile
    rw [MemoryFiles.firstText_insert_candidate (Path.sameAs_iff.1 hx)
      (ne_of_mem_front hdialect hps hx), MemoryFiles.firstText_append, hfound]
    rfl
  · have hother : ∀ x ∈ ps, x.components ≠ q.components := by
      intro x hx heq
      exact hcandidate ⟨x, hx, Path.sameAs_iff.2 heq⟩
    rw [MemoryFiles.firstText_insert_other hother]

end Insertion

/-- **The most specific file wins, whatever was inserted before and wherever the next one goes.** For
files in memory after any insertions and one more of `text` at `q`: a path without candidates stays
an error; if `q` is a candidate, in any spelling, and no earlier one is a file, the path now stands
for `text`; in every other case it stands for what it stood for. A file that is found can be read, and
none is found if and only if nothing was inserted at any candidate. -/
theorem resolve_insert {c : Config} (hc : c.validate = .ok ()) (files : List (Path × Text))
    (p q : Path) (text : Text) :
    let m := MemoryFiles.ofList files
    let before := ((⟨c.dialect, m.fileSystem⟩ : Resolver).resolve p).value
    let after := ((⟨c.dialect, (m.insert q text).fileSystem⟩ : Resolver).resolve p).value
    (∀ kind, candidates c.dialect p = .error kind → before = .error kind ∧ after = .error kind) ∧
    (∀ front x back, candidates c.dialect p = .ok (front ++ x :: back) → x.sameAs q = true →
      (∀ y ∈ front, m.fileSystem.isFile y = false) → after = .ok text) ∧
    (∀ ps, candidates c.dialect p = .ok ps →
      (∀ front x back, ps = front ++ x :: back → x.sameAs q = true →
        ∃ y ∈ front, m.fileSystem.isFile y = true) → after = before) ∧
    (∀ path reason, before ≠ .error (.fileUnreadable path reason)) ∧
    (∀ ps, before = .error (.fileNotFound ps) ↔
      candidates c.dialect p = .ok ps ∧ ∀ x ∈ ps, ∀ f ∈ files, f.1.sameAs x = false) := by
  intro m before after
  have hdialect : '/' ∉ c.dialect := (Config.validate_eq_ok_iff.1 hc).slash_notMem
  refine ⟨fun kind h => ⟨Resolver.value_resolve_of_error h, Resolver.value_resolve_of_error h⟩,
    fun front x back => resolve_insert_of_first hdialect,
    fun ps => resolve_insert_of_behind hdialect,
    fun path reason => Resolver.resolve_ne_fileUnreadable, fun ps => ?_⟩
  have hmissing (x : Path) :
      m.fileSystem.isFile x = false ↔ ∀ f ∈ files, f.1.sameAs x = false := by
    rw [← Bool.not_eq_true, MemoryFiles.isFile_ofList_iff]
    simp
  simp only [before, Resolver.resolve_eq_fileNotFound_iff, hmissing]

/-- The bracketed variant, written to through another spelling, comes in front of the plain file; the
plain file behind it is then no longer read. -/
theorem resolve_insert_bracketed :
    let c : Config := ⟨['D'], ['e']⟩
    let p : Path := ⟨"a/r.sql/".toList⟩
    let q : Path := ⟨"a//./r (D).sql/.".toList⟩
    let m := MemoryFiles.ofList [(⟨"a/r.sql".toList⟩, ['x'])]
    let resolve (m : MemoryFiles) := ((⟨c.dialect, m.fileSystem⟩ : Resolver).resolve p).value
    c.validate = .ok () ∧ resolve m = .ok ['x'] ∧ resolve (m.insert q ['y']) = .ok ['y'] ∧
      resolve ((m.insert q ['y']).insert p ['z']) = .ok ['y'] := by
  intro c p q m resolve
  have hc : c.validate = .ok () := by decide
  obtain ⟨-, hfirst, -⟩ := resolve_insert hc [(⟨"a/r.sql".toList⟩, ['x'])] p q ['y']
  have hq : resolve (m.insert q ['y']) = .ok ['y'] :=
    hfirst [⟨"a/r.D.sql".toList⟩] ⟨"a/r (D).sql".toList⟩ [p] (by decide) (by decide) (by decide)
  exact ⟨hc, by decide, hq, by decide⟩

end ScriptLexer
