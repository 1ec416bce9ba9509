import Mathlib.Data.List.Forall2
import ScriptLexer.Proofs.Access.Discipline

/-!
# Runs that look up the same

Two runs over scripts with the same texts, with resolvers that may look at different files. If every
reference that the first run looks up has the same answer in the second one, the runs have the same
outcome.

**The statement** (`Resolver.tokenize_matches`). The scripts are related by `S` and errors by `K`:
an answer is the same text in both runs, or an error in both, of kinds that `K` relates
(`Answer`). Then the tokens match one by one, up to `S` on their scripts, and so do the errors
(`Outcome.Matches`). When both relations are equality, so is this one (`Outcome.Matches.eq`).

**What is looked up** (`Resolver.scanned`). A run looks at references up to the first one that
stands for nothing, and no further, so only these need to have the same answers.
-/

namespace ScriptLexer

/-! ## The references that a run looks up -/

namespace Resolver

/-- The references among lexemes up to the first that stands for nothing. -/
def scannedIn (r : Resolver) (folder : Path) : List Lexeme → List Text
  | [] => []
  | .reference path :: ls =>
    path :: match (r.resolve (referencePath folder path)).value with
      | .ok _ => r.scannedIn folder ls
      | .error _ => []
  | _ :: ls => r.scannedIn folder ls

/-- The references that a run looks up, in order, each with the script it stands in. -/
def scanned (r : Resolver) : List Script → List (Script × Text)
  | [] => []
  | s :: ss =>
    (r.scannedIn s.folder (lex s.text).lexemes).map (s, ·) ++
      if (r.tokenize [s]).value.isOk then r.scanned ss else []

theorem mem_of_mem_scannedIn {r : Resolver} {folder : Path} {ls : List Lexeme} {path : Text}
    (h : path ∈ r.scannedIn folder ls) : .reference path ∈ ls := by
  induction ls with
  | nil => cases h
  | cons l ls ih =>
    cases l with
    | reference p =>
      rw [scannedIn] at h
      rcases List.mem_cons.1 h with rfl | h
      · exact List.mem_cons_self
      · split at h
        · exact List.mem_cons_of_mem _ (ih h)
        · cases h
    | _ => exact List.mem_cons_of_mem _ (ih h)

theorem mem_of_mem_scanned {r : Resolver} {ss : List Script} {s : Script} {path : Text}
    (h : (s, path) ∈ r.scanned ss) : s ∈ ss ∧ .reference path ∈ (lex s.text).lexemes := by
  induction ss with
  | nil => cases h
  | cons s' ss ih =>
    rcases List.mem_append.1 h with h | h
    · obtain ⟨p, hp, he⟩ := List.mem_map.1 h
      obtain ⟨rfl, rfl⟩ := Prod.mk.inj he
      exact ⟨List.mem_cons_self, mem_of_mem_scannedIn hp⟩
    · split at h
      · obtain ⟨hs, hpath⟩ := ih h
        exact ⟨List.mem_cons_of_mem s' hs, hpath⟩
      · cases h

end Resolver

/-! ## Answers that match -/

/-- The two answers are the same text, or errors of related kinds. -/
inductive Answer (K : ErrorKind → ErrorKind → Prop) :
    Except ErrorKind Text → Except ErrorKind Text → Prop
  | text (t : Text) : Answer K (.ok t) (.ok t)
  | error {kind kind' : ErrorKind} : K kind kind' → Answer K (.error kind) (.error kind')

/-! ## Lookups with matching answers -/

namespace FileSystem

/-- What a resolver answers when the path is the first file that it finds. -/
def answer (fs : FileSystem) (p : Path) : Except ErrorKind Text :=
  match fs.read p with
  | .ok text => .ok text
  | .error e => .error (.fileUnreadable p e.message)

/-- Both paths are files, with matching answers, or neither of them is a file. -/
structure PathsMatch (K : ErrorKind → ErrorKind → Prop) (fs fs' : FileSystem) (p p' : Path) :
    Prop where
  isFile : fs.isFile p = fs'.isFile p'
  answer : fs.isFile p = true → Answer K (fs.answer p) (fs'.answer p')

end FileSystem

namespace Resolver

variable {K : ErrorKind → ErrorKind → Prop} {r r' : Resolver} {p p' : Path} {ps ps' : List Path}

theorem value_resolve (h : candidates r.dialect p = .ok ps) :
    (r.resolve p).value =
      match ps.find? r.files.isFile with
      | none => .error (.fileNotFound ps)
      | some found => r.files.answer found := by
  simp only [resolve, h, Traced.value_bind, FileSystem.value_firstFile]
  cases ps.find? r.files.isFile with
  | none => rfl
  | some found =>
    simp only [Traced.value_bind, FileSystem.fetch, FileSystem.answer]
    cases r.files.read found <;> rfl

theorem find?_matches {fs fs' : FileSystem} (h : List.Forall₂ (fs.PathsMatch K fs') ps ps') :
    Option.Rel (fun q q' => Answer K (fs.answer q) (fs'.answer q')) (ps.find? fs.isFile)
      (ps'.find? fs'.isFile) := by
  induction h with
  | nil => exact .none
  | @cons q q' ps ps' hq _ ih =>
    rw [List.find?_cons, List.find?_cons, ← hq.isFile]
    cases hfile : fs.isFile q with
    | true => exact .some (hq.answer hfile)
    | false => exact ih

/-- **A lookup is answered as its candidates are.** -/
theorem answer_of_candidates (h : candidates r.dialect p = .ok ps)
    (h' : candidates r'.dialect p' = .ok ps') (hmissing : K (.fileNotFound ps) (.fileNotFound ps'))
    (hps : List.Forall₂ (r.files.PathsMatch K r'.files) ps ps') :
    Answer K (r.resolve p).value (r'.resolve p').value := by
  have hfound := find?_matches hps
  rw [value_resolve h, value_resolve h']
  generalize ps.find? r.files.isFile = found at hfound
  generalize ps'.find? r'.files.isFile = found' at hfound
  cases hfound with
  | none => exact .error hmissing
  | some hanswer => exact hanswer

theorem answer_of_refused {kind kind' : ErrorKind} (h : candidates r.dialect p = .error kind)
    (h' : candidates r'.dialect p' = .error kind') (hK : K kind kind') :
    Answer K (r.resolve p).value (r'.resolve p').value := by
  have hvalue : (r.resolve p).value = .error kind := by rw [resolve, h]; rfl
  have hvalue' : (r'.resolve p').value = .error kind' := by rw [resolve, h']; rfl
  rw [hvalue, hvalue']
  exact .error hK

end Resolver

/-! ## Outcomes that match -/

section

variable (S : Script → Script → Prop) (K : ErrorKind → ErrorKind → Prop)

/-- The two tokens differ at most in their scripts, which are related. -/
structure Token.Matches (a b : Token) : Prop where
  kind : a.kind = b.kind
  value : a.value = b.value
  start : a.start = b.start
  stop : a.stop = b.stop
  script : S a.script b.script

/-- The two errors stand at the same place of related scripts and are of related kinds. -/
structure LexicalError.Matches (e e' : LexicalError) : Prop where
  kind : K e.kind e'.kind
  offset : e.offset = e'.offset
  length : e.length = e'.length
  script : S e.script e'.script

/-- The two outcomes have matching tokens, and matching errors or none. -/
structure Outcome.Matches (o o' : Outcome) : Prop where
  tokens : List.Forall₂ (Token.Matches S) o.tokens o'.tokens
  error : Option.Rel (LexicalError.Matches S K) o.error o'.error

end

namespace Outcome.Matches

variable {S : Script → Script → Prop} {K : ErrorKind → ErrorKind → Prop} {o o' : Outcome}

theorem failed {e e' : LexicalError} (h : e.Matches S K e') :
    Outcome.Matches S K (.failed e) (.failed e') :=
  ⟨.nil, .some h⟩

theorem cons {a b : Token} (hab : a.Matches S b) (h : o.Matches S K o') :
    (o.cons a).Matches S K (o'.cons b) :=
  ⟨.cons hab h.tokens, h.error⟩

theorem append {o₁ o₁' : Outcome} (h₁ : o₁.Matches S K o₁') (h : o.Matches S K o') :
    (o₁.append o).Matches S K (o₁'.append o') :=
  ⟨List.rel_append h₁.tokens h.tokens, h.error⟩

theorem isOk_eq (h : o.Matches S K o') : o.isOk = o'.isOk := by
  obtain ⟨tokens, error⟩ := o
  obtain ⟨tokens', error'⟩ := o'
  cases h.error <;> rfl

theorem imp {S' : Script → Script → Prop} (hS : ∀ s s', S s s' → S' s s') (h : o.Matches S K o') :
    o.Matches S' K o' := by
  obtain ⟨tokens, error⟩ := o
  obtain ⟨tokens', error'⟩ := o'
  obtain ⟨htokens, herror⟩ := h
  refine ⟨htokens.imp fun a b hab => ?_, ?_⟩
  · exact ⟨hab.kind, hab.value, hab.start, hab.stop, hS _ _ hab.script⟩
  · cases herror with
    | none => exact .none
    | some he => exact .some ⟨he.kind, he.offset, he.length, hS _ _ he.script⟩

theorem eq (h : o.Matches Eq Eq o') : o = o' := by
  obtain ⟨tokens, error⟩ := o
  obtain ⟨tokens', error'⟩ := o'
  obtain ⟨htokens, herror⟩ := h
  congr 1
  · apply List.forall₂_eq_eq_eq ▸ htokens.imp
    rintro ⟨⟩ ⟨⟩ ⟨rfl, rfl, rfl, rfl, rfl⟩
    rfl
  · cases herror with
    | none => rfl
    | @some e e' he =>
      obtain ⟨⟩ := e
      obtain ⟨⟩ := e'
      obtain ⟨rfl, rfl, rfl, rfl⟩ := he
      rfl

theorem numbered {ts ts' : List Token} (h : List.Forall₂ (Token.Matches S) ts ts') (n : Nat) :
    List.Forall₂ (fun x y => x.1 = y.1 ∧ Token.Matches S x.2 y.2)
      (Outcome.numbered n ts) (Outcome.numbered n ts') := by
  induction h generalizing n with
  | nil => exact .nil
  | @cons a b ts ts' hab _ ih =>
    have hend : a.isEndOfFile = b.isEndOfFile := by
      rw [Token.isEndOfFile, Token.isEndOfFile, hab.kind]
    rw [Outcome.numbered, Outcome.numbered, hend]
    exact .cons ⟨rfl, hab⟩ (ih _)

theorem finished_eq (h : o.Matches S K o') : o.finished = o'.finished := by
  obtain ⟨tokens, error⟩ := o
  obtain ⟨tokens', error'⟩ := o'
  have htokens : List.Forall₂ (Token.Matches S) tokens tokens' := h.tokens
  clear h
  rw [finished, finished]
  induction htokens with
  | nil => rfl
  | @cons a b ts ts' hab _ ih =>
    have hend : a.isEndOfFile = b.isEndOfFile := by
      rw [Token.isEndOfFile, Token.isEndOfFile, hab.kind]
    rw [List.countP_cons, List.countP_cons, ih, hend]

end Outcome.Matches

/-! ## The simulation -/

namespace Resolver

variable {S : Script → Script → Prop} {K : ErrorKind → ErrorKind → Prop} {r r' : Resolver}

/-- **Step for step**: lexemes mean the same in both runs. -/
theorem tokensOf_matches (hK : ∀ kind, K kind kind) {s s' : Script} (hS : S s s')
    (htext : s.text = s'.text) (fault : Option Fault) (n : Nat) {ls : List Lexeme}
    (h : ∀ path ∈ r.scannedIn s.folder ls,
      Answer K (r.resolve (referencePath s.folder path)).value
        (r'.resolve (referencePath s'.folder path)).value) :
    (r.tokensOf s fault n ls).value.Matches S K (r'.tokensOf s' fault n ls).value := by
  induction ls generalizing n with
  | nil =>
    cases fault with
    | none =>
      have hlength : s.length = s'.length := by rw [Script.length, Script.length, htext]
      exact ⟨.cons ⟨rfl, rfl, hlength, hlength, hS⟩ .nil, .none⟩
    | some f => exact .failed ⟨hK f.kind, rfl, rfl, hS⟩
  | cons l ls ih =>
    rw [tokensOf, tokensOf, Traced.value_bind, Traced.value_bind]
    cases l with
    | blank run => exact ih _ h
    | comment body => exact ih _ h
    | word run => exact (ih _ h).cons ⟨rfl, rfl, rfl, rfl, hS⟩
    | quoted q value => exact (ih _ h).cons ⟨rfl, rfl, rfl, rfl, hS⟩
    | special c => exact (ih _ h).cons ⟨rfl, rfl, rfl, rfl, hS⟩
    | reference path =>
      have hpath := h path List.mem_cons_self
      rw [scannedIn] at h
      simp only [meaning, Traced.value_bind]
      generalize (r.resolve (referencePath s.folder path)).value = answer at h hpath
      generalize (r'.resolve (referencePath s'.folder path)).value = answer' at hpath
      cases hpath with
      | text t =>
        exact (ih _ fun p hp => h p (List.mem_cons_of_mem _ hp)).cons ⟨rfl, rfl, rfl, rfl, hS⟩
      | error hkind => exact .failed ⟨hkind, rfl, rfl, hS⟩

/-- **Runs that get matching answers have matching outcomes.** -/
theorem tokenize_matches (hK : ∀ kind, K kind kind) {ss ss' : List Script}
    (hss : List.Forall₂ (fun s s' => S s s' ∧ s.text = s'.text) ss ss')
    (h : ∀ s s' path, S s s' → (s, path) ∈ r.scanned ss →
      Answer K (r.resolve (referencePath s.folder path)).value
        (r'.resolve (referencePath s'.folder path)).value) :
    (r.tokenize ss).value.Matches S K (r'.tokenize ss').value := by
  induction hss with
  | nil => exact ⟨.nil, .none⟩
  | @cons s s' ss ss' hs _ ih =>
    obtain ⟨hS, htext⟩ := hs
    have hone : (r.tokenize [s]).value.Matches S K (r'.tokenize [s']).value := by
      rw [value_tokenize_singleton, value_tokenize_singleton, tokensFrom, tokensFrom, ← htext]
      apply tokensOf_matches hK hS htext
      intro path hpath
      exact h s s' path hS (List.mem_append_left _ (List.mem_map.2 ⟨path, hpath, rfl⟩))
    rw [value_tokenize_cons r s, value_tokenize_cons r' s', ← hone.isOk_eq]
    split
    · next hok =>
      apply hone.append
      apply ih
      intro t t' path hT hpath
      refine h t t' path hT (List.mem_append_right _ ?_)
      rw [if_pos hok]
      exact hpath
    · exact hone

end Resolver

end ScriptLexer
