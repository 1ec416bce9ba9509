import Mathlib.Data.List.TakeWhile
import ScriptLexer.Reference.Resolver

/-!
# Looking up a reference

What a resolver asks of its files for one path, and what it answers.

`Resolver.lookups` are the accesses: the candidates are probed in order up to the first that is a
file, and that one is read. `Lookup` puts the accesses and the answer side by side, one constructor
for each way a lookup can end; `lookup_resolve` says that there is no other way.
-/

namespace ScriptLexer

/-- Whether a reference was well written and led to no text. -/
def ErrorKind.isUnresolved : ErrorKind → Bool
  | emptyFileName _ | fileNotFound _ | fileUnreadable _ _ => true
  | unterminatedQuote _ | unterminatedReference | invalidPathCharacter _ => false

namespace Resolver

/-- The accesses for a path: probes of its candidates up to the first file, which is then read. -/
def lookups (r : Resolver) (p : Path) : List Access :=
  match candidates r.dialect p with
  | .error _ => []
  | .ok ps =>
    match ps.find? r.files.isFile with
    | none => ps.map .isFile
    | some found =>
      (ps.takeWhile fun q => !r.files.isFile q).map .isFile ++ [.isFile found, .read found]

/-- How a lookup ends: the accesses that were made, and the answer. -/
inductive Lookup (r : Resolver) (p : Path) : List Access → Except ErrorKind Text → Prop
  /-- The path cannot name a file, so no file is asked for. -/
  | refused {path : Path} : candidates r.dialect p = .error (.emptyFileName path) →
      Lookup r p [] (.error (.emptyFileName path))
  /-- Every candidate is probed, and none is a file. -/
  | missing {ps : List Path} : candidates r.dialect p = .ok ps →
      (∀ q ∈ ps, r.files.isFile q = false) →
      Lookup r p (ps.map .isFile) (.error (.fileNotFound ps))
  /-- The first candidate that is a file cannot be read; the later ones are not asked for. -/
  | unreadable {before after : List Path} {found : Path} {cause : ReadError} :
      candidates r.dialect p = .ok (before ++ found :: after) →
      (∀ q ∈ before, r.files.isFile q = false) → r.files.isFile found = true →
      r.files.read found = .error cause →
      Lookup r p (before.map .isFile ++ [.isFile found, .read found])
        (.error (.fileUnreadable found cause.message))
  /-- The first candidate that is a file is read. -/
  | read {before after : List Path} {found : Path} {text : Text} :
      candidates r.dialect p = .ok (before ++ found :: after) →
      (∀ q ∈ before, r.files.isFile q = false) → r.files.isFile found = true →
      r.files.read found = .ok text →
      Lookup r p (before.map .isFile ++ [.isFile found, .read found]) (.ok text)

theorem accesses_resolve (r : Resolver) (p : Path) : (r.resolve p).accesses = r.lookups p := by
  unfold resolve lookups
  cases candidates r.dialect p with
  | error kind => rfl
  | ok ps =>
    simp only [Traced.accesses_bind, FileSystem.accesses_firstFile, FileSystem.value_firstFile]
    cases h : ps.find? r.files.isFile with
    | none =>
      have hall : ∀ q ∈ ps, (!r.files.isFile q) = true := by
        intro q hq
        simpa using List.find?_eq_none.1 h q hq
      simp [List.takeWhile_eq_self_iff.2 hall]
    | some found =>
      cases hread : r.files.read found <;> simp [FileSystem.fetch, hread]

theorem eq_emptyFileName_of_candidates {dialect : Text} {p : Path} {kind : ErrorKind}
    (h : candidates dialect p = .error kind) : kind = .emptyFileName p := by
  unfold candidates at h
  split at h
  · cases h
  · split at h
    · cases h
    · split at h
      · exact (Except.error.inj h).symm
      · cases h

theorem takeWhile_eq_of_forall {fs : FileSystem} {before after : List Path} {found : Path}
    (hbefore : ∀ q ∈ before, fs.isFile q = false) (hfound : fs.isFile found = true) :
    (before ++ found :: after).takeWhile (fun q => !fs.isFile q) = before := by
  rw [List.takeWhile_append_of_pos]
  · simp [hfound]
  · intro q hq
    simp [hbefore q hq]

/-- **Every lookup ends in one of the four ways.** -/
theorem lookup_resolve (r : Resolver) (p : Path) :
    Lookup r p (r.lookups p) (r.resolve p).value := by
  unfold resolve lookups
  cases hc : candidates r.dialect p with
  | error kind =>
    obtain rfl := eq_emptyFileName_of_candidates hc
    exact .refused hc
  | ok ps =>
    simp only [Traced.value_bind, FileSystem.value_firstFile]
    cases hf : ps.find? r.files.isFile with
    | none =>
      apply Lookup.missing hc
      intro q hq
      simpa using List.find?_eq_none.1 hf q hq
    | some found =>
      obtain ⟨hfound, before, after, rfl, hbefore⟩ := List.find?_eq_some_iff_append.1 hf
      have hbefore : ∀ q ∈ before, r.files.isFile q = false := by
        intro q hq
        simpa using hbefore q hq
      simp only [takeWhile_eq_of_forall hbefore hfound]
      cases hread : r.files.read found with
      | error cause => simpa [FileSystem.fetch, hread] using .unreadable hc hbefore hfound hread
      | ok text => simpa [FileSystem.fetch, hread] using .read hc hbefore hfound hread

theorem isUnresolved_of_resolve {r : Resolver} {p : Path} {kind : ErrorKind}
    (h : (r.resolve p).value = .error kind) : kind.isUnresolved = true := by
  have hl := r.lookup_resolve p
  rw [h] at hl
  generalize r.lookups p = accesses at hl
  cases hl <;> rfl

end Resolver

end ScriptLexer
