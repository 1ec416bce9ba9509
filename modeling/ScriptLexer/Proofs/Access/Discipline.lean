import Mathlib.Data.List.Basic
import ScriptLexer.Files.Memory
import ScriptLexer.Proofs.Tokens.Soundness
import ScriptLexer.Proofs.Tokens.Stop

/-!
# Which files a run asks for

**The statement** (`Outcome.targets`, `Resolver.Disciplined`). A run asks for files because of
references only: those that became tokens, and the last one if it failed. Each of them is looked up
once, in the order of the scripts and of their texts, and a lookup is `Resolver.lookups`: probes of the
candidates up to the first file, and then one read of that file. So a path is read right after a probe
has found it, a failed read ends the run, and an error about a missing file lists what was probed.

The references are read off the outcome, not off the way it was computed: a token that covers `<p>`,
and an error about an unresolved reference, which stands at its `<`.

**The proof.** Over a cut, the accesses are the lookups of its references, one lexeme after the other
(`Resolver.Reaches.accesses_tokensFrom`), and these are the references of its tokens
(`filterMap_tokensAt`). Where the run stops, the last lookup is that of the reference of the error, if
there is one.

Main result: `accesses_tokenize`.
-/

namespace ScriptLexer

/-! ## The references of an outcome -/

/-- The path that the token addresses, if it covers a reference. -/
def Token.target? (a : Token) : Option Path :=
  match a.source with
  | '<' :: path => some (referencePath a.script.folder path.dropLast)
  | _ => none

/-- The path that could not be resolved, if the error is about one. -/
def LexicalError.target? (e : LexicalError) : Option Path :=
  if e.kind.isUnresolved then
    some (referencePath e.script.folder (e.source.tail.takeWhile fun c => c != '>'))
  else none

/-- The paths that the outcome has looked up, in order. -/
def Outcome.targets (o : Outcome) : List Path :=
  o.tokens.filterMap Token.target? ++ (o.error.bind LexicalError.target?).toList

/-- The path that the lexeme addresses in a script of `folder`, if it is a reference. -/
def Lexeme.target? (folder : Path) : Lexeme → Option Path
  | reference path => some (referencePath folder path)
  | blank _ | comment _ | word _ | quoted _ _ | special _ => none

theorem Token.target?_eq_none {a : Token} (h : a.source.head? ≠ some '<') : a.target? = none := by
  unfold target?
  split
  · next hs =>
    rw [hs] at h
    exact absurd rfl h
  · rfl

theorem Token.target?_endOfFile (s : Script) : (Token.endOfFile s).target? = none := by
  apply Token.target?_eq_none
  have hsource : (Token.endOfFile s).source = [] := by
    simp [source, Text.between, endOfFile, Script.length]
  rw [hsource]
  simp

theorem Lexeme.bind_target? {s : Script} {content : Text → Text} {l : Lexeme} {u t : Text}
    (hw : l.WellFormed) (hs : s.text = u ++ (l.text ++ t)) :
    (l.token? content s u.length).bind Token.target? = l.target? s.folder := by
  cases l with
  | blank run => rfl
  | comment body => rfl
  | word run =>
    apply Token.target?_eq_none
    rw [source_eq _ _ hs]
    intro hhead
    have hword : isWord '<' = true := hw.2 '<' (List.mem_of_head? hhead)
    exact absurd hword (by decide +kernel)
  | quoted q value =>
    apply Token.target?_eq_none
    rw [source_eq _ _ hs]
    intro hhead
    obtain rfl : q = '<' := Option.some.inj hhead
    cases hw
  | reference path =>
    have hsource := source_eq .text (content path) hs
    rw [text, List.cons_append] at hsource
    simp [token?, meaning, Token.target?, hsource, target?]
  | special c =>
    apply Token.target?_eq_none
    rw [source_eq _ _ hs]
    intro hhead
    exact hw.2.2.2 (Option.some.inj hhead)

/-- **The tokens of lexemes in a row address what the references among them do.** -/
theorem filterMap_tokensAt {s : Script} {content : Text → Text} {ls : List Lexeme} {u rest : Text}
    (hw : ∀ l ∈ ls, l.WellFormed) (hs : s.text = u ++ (written ls ++ rest)) :
    (tokensAt content s u.length ls).filterMap Token.target? =
      ls.filterMap (Lexeme.target? s.folder) := by
  induction ls generalizing u with
  | nil => rfl
  | cons l ls ih =>
    have hl : s.text = u ++ (l.text ++ (written ls ++ rest)) := by
      rw [hs, written_cons, List.append_assoc]
    have hls : s.text = (u ++ l.text) ++ (written ls ++ rest) := by
      rw [hl, List.append_assoc]
    have htail := ih (fun l' hl' => hw l' (List.mem_cons_of_mem l hl')) hls
    have hhead : (l.token? content s u.length).bind Token.target? = l.target? s.folder :=
      Lexeme.bind_target? (hw l List.mem_cons_self) hl
    rw [List.length_append] at htail
    rw [tokensAt, List.filterMap_append, Lexeme.length, htail, List.filterMap_cons, ← hhead]
    cases l.token? content s u.length with
    | none => rfl
    | some a => cases ha : a.target? <;> simp [ha]

namespace Resolver

variable {r : Resolver} {s : Script}

/-! ## Runs -/

theorem accesses_meaning (r : Resolver) (folder : Path) (l : Lexeme) :
    (r.meaning folder l).accesses = (l.target? folder).toList.flatMap r.lookups := by
  cases l with
  | reference path =>
    rw [meaning, Traced.accesses_bind, accesses_resolve]
    cases (r.resolve (referencePath folder path)).value <;> simp [Lexeme.target?]
  | _ => rfl

theorem accesses_tokensFrom_append {n : Nat} {l : Lexeme} {t : Text} {content : Text → Text}
    (hw : l.WellFormed) (he : l.EndsBefore t) (hf : r.Finds s.folder content l) :
    (r.tokensFrom s n (l.text ++ t)).accesses =
      (l.target? s.folder).toList.flatMap r.lookups ++
        (r.tokensFrom s (n + l.length) t).accesses := by
  rw [tokensFrom_append hw he, Traced.accesses_bind, accesses_meaning, value_meaning hf]
  cases l.meaning content with
  | none => rfl
  | some m => simp only [Traced.accesses_map]

/-- **A run over a cut looks up its references**, and goes on behind it. -/
theorem Reaches.accesses_tokensFrom {content : Text → Text} {ls : List Lexeme} {rest : Text}
    (h : r.Reaches s.folder content ls rest) (n : Nat) :
    (r.tokensFrom s n (written ls ++ rest)).accesses =
      (ls.filterMap (Lexeme.target? s.folder)).flatMap r.lookups ++
        (r.tokensFrom s (n + (written ls).length) rest).accesses := by
  induction ls generalizing n with
  | nil => rfl
  | cons l ls ih =>
    obtain ⟨hw, he, hl, hls⟩ := h.of_cons
    have htail := ih hls (n + l.length)
    rw [written_cons, List.append_assoc, accesses_tokensFrom_append hw he hl, htail,
      List.length_append, ← Lexeme.length, ← Nat.add_assoc, ← List.append_assoc]
    cases ht : l.target? s.folder <;> simp [ht]

theorem Reaches.filterMap_tokensAt {content : Text → Text} {ls : List Lexeme} {rest : Text}
    (h : r.Reaches s.folder content ls rest) (hs : s.text = written ls ++ rest) :
    (tokensAt content s 0 ls).filterMap Token.target? =
      ls.filterMap (Lexeme.target? s.folder) :=
  ScriptLexer.filterMap_tokensAt (u := []) h.cut.wellFormed hs

/-- **Where a run stops, it looks up the reference that leads to no text**, if that is what stops it. -/
theorem Stops.accesses_tokensFrom {t : Text} {kind : ErrorKind} {length : Option Nat}
    (h : r.Stops s.folder t kind length) (n : Nat) :
    (kind.isUnresolved = false ∧ (r.tokensFrom s n t).accesses = []) ∨
      ∃ path rest, t = '<' :: (path ++ '>' :: rest) ∧ '>' ∉ path ∧
        (r.resolve (referencePath s.folder path)).value = .error kind ∧
        (r.tokensFrom s n t).accesses = r.lookups (referencePath s.folder path) := by
  cases h with
  | fault hc hf =>
    left
    constructor
    · cases Start.read_eq_fault_iff.1 hf <;> rfl
    · rw [tokensFrom, lex_fault hc hf]
      rfl
  | @unresolved path rest kind hw hkind =>
    right
    refine ⟨path, rest, by simp [Lexeme.text], ?_, hkind, ?_⟩
    · intro hmem
      exact absurd (hw '>' hmem) (by decide)
    · rw [tokensFrom_append hw trivial, Traced.accesses_bind, accesses_meaning]
      simp [meaning, hkind, Lexeme.target?]

/-- **The error of a script addresses what the run looked up last**, if anything. -/
theorem target?_of_error {e : LexicalError} (he : (r.tokenize [s]).value.error = some e) :
    (r.tokensFrom s e.offset e.source).accesses = e.target?.toList.flatMap r.lookups ∧
      ∀ p, e.target? = some p → (r.resolve p).value = .error e.kind := by
  obtain ⟨rfl, ls, -, -, -, hstop, -⟩ := exists_stop he
  rcases hstop.accesses_tokensFrom e.offset with ⟨hkind, hnone⟩ |
    ⟨path, rest, hsource, hpath, hkind, hlookups⟩
  · have htarget : e.target? = none := by rw [LexicalError.target?, hkind]; rfl
    rw [hnone, htarget]
    exact ⟨rfl, nofun⟩
  · have hbody : (path ++ '>' :: rest).takeWhile (fun c => c != '>') = path := by
      apply takeWhile_append_of_head?
      · intro c hc
        have hne : c ≠ '>' := by
          rintro rfl
          exact hpath hc
        simpa using hne
      · intro c hc
        obtain rfl := Option.some.inj hc
        rfl
    have htarget : e.target? = some (referencePath e.script.folder path) := by
      rw [LexicalError.target?, isUnresolved_of_resolve hkind, if_pos rfl, hsource,
        List.tail_cons, hbody]
    rw [hlookups, htarget]
    refine ⟨by simp, ?_⟩
    intro p hp
    obtain rfl := Option.some.inj hp
    exact hkind

theorem accesses_tokenize_one (r : Resolver) (s : Script) :
    (r.tokenize [s]).accesses = (r.tokenize [s]).value.targets.flatMap r.lookups := by
  obtain ⟨ls, rest, hs, hreach, hend⟩ := r.exists_run s
  have htokens := hreach.filterMap_tokensAt hs
  have hrun := hreach.accesses_tokensFrom 0
  rw [← hs, Nat.zero_add, ← htokens] at hrun
  rw [accesses_tokenize_singleton, hrun]
  rcases hend with ⟨rfl, ho⟩ | ⟨kind, length, -, ho⟩
  · rw [ho, tokensFrom_nil, Outcome.targets, List.filterMap_append]
    simp [Token.target?_endOfFile]
  · have herror : (r.tokenize [s]).value.error = some ⟨kind, s, (written ls).length, length⟩ := by
      rw [ho]
    have hlast := (target?_of_error herror).1
    rw [LexicalError.source_eq hs] at hlast
    rw [hlast, ho, Outcome.targets, List.flatMap_append]
    rfl

theorem exists_text_of_mem_targets {ss : List Script} {p : Path}
    (hp : p ∈ (r.tokenize ss).value.tokens.filterMap Token.target?) :
    ∃ text, (r.resolve p).value = .ok text := by
  obtain ⟨a, ha, hap⟩ := List.mem_filterMap.1 hp
  obtain ⟨s, -, ha⟩ := mem_tokenize ha
  rcases eq_endOfFile_or_mem_tokensAt ha with rfl | ⟨ls, rest, hs, hreach, ha⟩
  · rw [Token.target?_endOfFile] at hap
    cases hap
  · have hmem : p ∈ ls.filterMap (Lexeme.target? s.folder) := by
      rw [← hreach.filterMap_tokensAt hs]
      exact List.mem_filterMap.2 ⟨a, ha, hap⟩
    obtain ⟨l, hl, hlp⟩ := List.mem_filterMap.1 hmem
    cases l with
    | reference path =>
      obtain rfl := Option.some.inj hlp
      exact ⟨_, hreach.finds _ hl path rfl⟩
    | _ => cases hlp

theorem targets_append {o o' : Outcome} (h : o.isOk = true) :
    (o.append o').targets = o.targets ++ o'.targets := by
  have herror : o.error = none := by simpa [Outcome.isOk] using h
  simp [Outcome.append, Outcome.targets, herror]

/-- **A run looks up its references, in order, and asks for nothing else.** -/
theorem accesses_eq_flatMap (r : Resolver) (ss : List Script) :
    (r.tokenize ss).accesses = (r.tokenize ss).value.targets.flatMap r.lookups := by
  induction ss with
  | nil => rfl
  | cons s ss ih =>
    rw [accesses_tokenize_cons, value_tokenize_cons r s ss, accesses_tokenize_one]
    split
    · next hok => rw [targets_append hok, List.flatMap_append, ih]
    · rw [List.append_nil]

theorem resolve_of_error {ss : List Script} {e : LexicalError} {p : Path}
    (he : (r.tokenize ss).value.error = some e) (hp : e.target? = some p) :
    (r.resolve p).value = .error e.kind := by
  obtain ⟨s, -, he⟩ := exists_failing he
  exact (target?_of_error he).2 p hp

/-- **A reference that leads to no text is the last one**, and the error of the run is about it. -/
theorem eq_nil_of_resolve_eq_error {ss : List Script} {p : Path} {kind : ErrorKind} {l₁ l₂ : List Path}
    (htargets : (r.tokenize ss).value.targets = l₁ ++ p :: l₂)
    (hp : (r.resolve p).value = .error kind) :
    l₂ = [] ∧ ∃ e, (r.tokenize ss).value.error = some e ∧ e.kind = kind := by
  have hnotMem : p ∉ (r.tokenize ss).value.tokens.filterMap Token.target? := by
    intro hmem
    obtain ⟨text, htext⟩ := exists_text_of_mem_targets hmem
    rw [hp] at htext
    cases htext
  rw [Outcome.targets] at htargets
  cases hlast : (r.tokenize ss).value.error.bind LexicalError.target? with
  | none =>
    rw [hlast, Option.toList_none, List.append_nil] at htargets
    rw [htargets] at hnotMem
    exact absurd (List.mem_append_right l₁ List.mem_cons_self) hnotMem
  | some p' =>
    obtain ⟨e, he, hep⟩ := Option.bind_eq_some_iff.1 hlast
    have hkind := resolve_of_error he hep
    rw [hlast, Option.toList_some] at htargets
    -- The tokens do not address `p`, so it stands where the reference of the error does.
    rw [List.append_cons_inj_of_notMem hnotMem List.not_mem_nil] at htargets
    obtain ⟨-, rfl, rfl⟩ := htargets
    exact ⟨rfl, e, he, Except.error.inj (hkind.symm.trans hp)⟩

end Resolver

/-! ## Reads -/

theorem exists_of_flatten_eq {β : Type} {parts : List (List β)} {before after : List β} {b : β}
    (h : parts.flatten = before ++ b :: after) :
    ∃ front b₁ b₂ back, parts = front ++ (b₁ ++ b :: b₂) :: back ∧ before = front.flatten ++ b₁ ∧
      after = b₂ ++ back.flatten := by
  rcases List.flatten_eq_append_iff.1 h with ⟨front, back, rfl, hbefore, hback⟩ |
    ⟨front, b₁, c, b₂, back, rfl, hbefore, hback⟩
  · -- The element opens a part, behind parts that may be empty.
    obtain ⟨empty, b₂, back, rfl, hempty, hafter⟩ := List.flatten_eq_cons_iff.1 hback.symm
    refine ⟨front ++ empty, [], b₂, back, by simp, ?_, hafter⟩
    rw [List.flatten_append, List.flatten_eq_nil_iff.2 hempty, hbefore]
    simp
  · rw [List.cons_append] at hback
    obtain ⟨rfl, hafter⟩ := List.cons.inj hback
    exact ⟨front, b₁, b₂, back, rfl, hbefore, hafter⟩

theorem exists_of_flatMap_eq {α β : Type} {f : α → List β} {l : List α} {before after : List β} {b : β}
    (h : l.flatMap f = before ++ b :: after) :
    ∃ l₁ a l₂ b₁ b₂, l = l₁ ++ a :: l₂ ∧ f a = b₁ ++ b :: b₂ ∧ before = l₁.flatMap f ++ b₁ ∧
      after = b₂ ++ l₂.flatMap f := by
  rw [List.flatMap_def] at h
  obtain ⟨front, b₁, b₂, back, hmap, rfl, rfl⟩ := exists_of_flatten_eq h
  obtain ⟨l₁, l', rfl, rfl, hl'⟩ := List.map_eq_append_iff.1 hmap
  obtain ⟨a, l₂, rfl, ha, rfl⟩ := List.map_eq_cons_iff.1 hl'
  exact ⟨l₁, a, l₂, b₁, b₂, rfl, ha, rfl, rfl⟩

/-- **A lookup reads once, at its end**, the path that it has just found. -/
theorem Resolver.Lookup.of_read {r : Resolver} {p q : Path} {accesses before after : List Access}
    {answer : Except ErrorKind Text} (h : r.Lookup p accesses answer)
    (hread : accesses = before ++ .read q :: after) :
    after = [] ∧ (∃ front, before = front ++ [.isFile q]) ∧ r.files.isFile q = true ∧
      ∀ cause, r.files.read q = .error cause →
        answer = .error (.fileUnreadable q cause.message) := by
  -- A read stands behind probes only, so it is the last access.
  have hlast : ∀ {ps : List Path} {found : Path},
      ps.map .isFile ++ [.isFile found, .read found] = before ++ .read q :: after →
        after = [] ∧ before = ps.map .isFile ++ [.isFile found] ∧ found = q := by
    intro ps found heq
    have hnotMem : Access.read q ∉ ps.map .isFile ++ [.isFile found] := by simp
    rw [List.append_cons, List.append_cons_inj_of_notMem hnotMem List.not_mem_nil] at heq
    obtain ⟨hbefore, hfound, hafter⟩ := heq
    exact ⟨hafter.symm, hbefore.symm, Access.read.inj hfound⟩
  cases h with
  | refused _ => simp at hread
  | missing _ _ =>
    have hmem : Access.read q ∈ before ++ .read q :: after := by simp
    rw [← hread] at hmem
    simp at hmem
  | unreadable _ _ hfile hcause =>
    obtain ⟨hafter, hbefore, rfl⟩ := hlast hread
    refine ⟨hafter, ⟨_, hbefore⟩, hfile, ?_⟩
    intro cause hcause'
    obtain rfl := Except.error.inj (hcause.symm.trans hcause')
    rfl
  | read _ _ hfile htext =>
    obtain ⟨hafter, hbefore, rfl⟩ := hlast hread
    refine ⟨hafter, ⟨_, hbefore⟩, hfile, ?_⟩
    intro cause hcause
    cases htext.symm.trans hcause

/-- **A lookup that finds no file has probed what it reports.** -/
theorem Resolver.Lookup.of_missing {r : Resolver} {p : Path} {accesses : List Access} {ps : List Path}
    {answer : Except ErrorKind Text} (h : r.Lookup p accesses answer)
    (hanswer : answer = .error (.fileNotFound ps)) : accesses = ps.map .isFile := by
  cases h with
  | missing _ _ =>
    obtain rfl := ErrorKind.fileNotFound.inj (Except.error.inj hanswer)
    rfl
  | _ => simp at hanswer

/-! ## The discipline -/

/-- What the accesses of a run have to do with its outcome. -/
structure Resolver.Disciplined (r : Resolver) (run : Traced Outcome) : Prop where
  /-- The references are looked up in order, and nothing else is asked for. -/
  lookups : run.accesses = run.value.targets.flatMap r.lookups
  /-- A path is read right after it was found to be a file. -/
  probed : ∀ before q after, run.accesses = before ++ .read q :: after →
    r.files.isFile q = true ∧ ∃ front, before = front ++ [.isFile q]
  /-- A failed read is the last access, and the error names the path and the cause. -/
  unreadable : ∀ before q after cause, run.accesses = before ++ .read q :: after →
    r.files.read q = .error cause →
    after = [] ∧ ∃ e, run.value.error = some e ∧ e.kind = .fileUnreadable q cause.message
  /-- An error about a missing file lists the probes of its reference, which come last. -/
  missing : ∀ e ps, run.value.error = some e → e.kind = .fileNotFound ps →
    ∃ p, e.target? = some p ∧ r.lookups p = ps.map .isFile ∧ ps.map .isFile <:+ run.accesses

/-- **A run asks for the files of its references, in order, and for nothing else.** -/
theorem accesses_tokenize (r : Resolver) (ss : List Script) : r.Disciplined (r.tokenize ss) := by
  have hlookups := r.accesses_eq_flatMap ss
  constructor
  · exact hlookups
  · intro before q after hread
    obtain ⟨l₁, p, l₂, b₁, b₂, -, hp, rfl, -⟩ := exists_of_flatMap_eq (hlookups.symm.trans hread)
    obtain ⟨-, ⟨front, rfl⟩, hfile, -⟩ := (r.lookup_resolve p).of_read hp
    exact ⟨hfile, l₁.flatMap r.lookups ++ front, by rw [List.append_assoc]⟩
  · intro before q after cause hread hcause
    obtain ⟨l₁, p, l₂, b₁, b₂, htargets, hp, -, rfl⟩ :=
      exists_of_flatMap_eq (hlookups.symm.trans hread)
    obtain ⟨rfl, -, -, hfails⟩ := (r.lookup_resolve p).of_read hp
    obtain ⟨rfl, e, he, hkind⟩ := Resolver.eq_nil_of_resolve_eq_error htargets (hfails cause hcause)
    exact ⟨rfl, e, he, hkind⟩
  · intro e ps he hkind
    have htarget : e.target? =
        some (referencePath e.script.folder (e.source.tail.takeWhile fun c => c != '>')) := by
      rw [LexicalError.target?, hkind]
      rfl
    have hanswer := Resolver.resolve_of_error he htarget
    rw [hkind] at hanswer
    have hlookup := (r.lookup_resolve _).of_missing hanswer
    refine ⟨_, htarget, hlookup, ?_⟩
    rw [hlookups, Outcome.targets, he, Option.bind_some, htarget, Option.toList_some,
      List.flatMap_append, List.flatMap_singleton, hlookup]
    exact List.suffix_append _ _

/-- A reference in a quotation is not looked up, nor is one behind a missing file. -/
example :
    let r : Resolver := ⟨['D'], (MemoryFiles.empty.insert ⟨['f']⟩ ['A']).fileSystem⟩
    (r.tokenize [⟨⟨['m']⟩, "<f>'<g>'<h><f>".toList⟩]).accesses =
      [.isFile ⟨['f']⟩, .read ⟨['f']⟩, .isFile ⟨['h']⟩] := by decide +kernel

end ScriptLexer
