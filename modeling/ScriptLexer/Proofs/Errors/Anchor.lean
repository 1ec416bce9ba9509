import ScriptLexer.Files.Memory
import ScriptLexer.Proofs.Tokens.Stop

/-!
# Where an error stands

**The statement** (`LexicalError.Anchored`). An error stands at a character of its script: at the
quote that opens a quotation, or at the `<` of a reference. The text from there on shows what the
kind of the error says, and nothing else.

* An unterminated quotation cannot be closed anywhere: no reading of the text behind the quote as
  doubled quotes, a closing quote and something else is possible.
* An unterminated reference has only path characters up to the end of the script.
* A refused character stands where the length says, with path characters before it. No other error
  has a length.
* A reference that stands for nothing is complete, and its resolution gives this very error.

**The proof.** The error is where the run over its script stops (`Resolver.exists_stop`), and
`Resolver.stops_iff` lists what the text can look like there.

Main result: `tokenize_error_anchored`.
-/

namespace ScriptLexer

/-- The character that opens what has failed. -/
def ErrorKind.opening : ErrorKind → Char
  | unterminatedQuote quote => quote
  | unterminatedReference | invalidPathCharacter _ | emptyFileName _ | fileNotFound _ |
    fileUnreadable _ _ => '<'

namespace LexicalError

/-- The error stands where the defect is that its kind names. -/
structure Anchored (r : Resolver) (e : LexicalError) : Prop where
  /-- The place is inside the script. -/
  inside : e.offset < e.script.length
  /-- What has failed starts there. -/
  opening : e.source.head? = some e.kind.opening
  /-- Only a refused character gives the error a length. -/
  length : (∀ c, e.kind ≠ .invalidPathCharacter c) → e.length = none
  /-- No text behind the quote closes the quotation. -/
  openQuotation : ∀ q, e.kind = .unterminatedQuote q → isQuote q = true ∧
    ¬ ∃ body rest, e.source.tail = doubled q body ++ q :: rest ∧ rest.head? ≠ some q
  /-- Nothing behind the `<` ends the path of the reference. -/
  openReference : e.kind = .unterminatedReference →
    ∀ c ∈ e.source.tail, c ≠ '>' ∧ isRefusedInPath c = false
  /-- The length leads to the refused character, and all before it may stand in a path. -/
  refusedCharacter : ∀ c, e.kind = .invalidPathCharacter c → ∃ n, e.length = some n ∧ 1 < n ∧
    e.source[n - 1]? = some c ∧ isRefusedInPath c = true ∧
    ∀ i d, 0 < i → i < n - 1 → e.source[i]? = some d → d ≠ '>' ∧ isRefusedInPath d = false
  /-- The reference is complete, and this is how its resolution fails. -/
  unresolved : e.kind.isUnresolved = true → ∃ path rest, e.source.tail = path ++ '>' :: rest ∧
    (∀ c ∈ path, c ≠ '>' ∧ isRefusedInPath c = false) ∧
    (r.resolve (referencePath e.script.folder path)).value = .error e.kind

end LexicalError

namespace LexicalError

variable {r : Resolver} {e : LexicalError}

theorem offset_lt_length (h : e.source ≠ []) : e.offset < e.script.length := by
  rw [source, ne_eq, List.drop_eq_nil_iff] at h
  exact Nat.lt_of_not_le h

theorem anchored_of_defect (h : Defect e.source ⟨e.kind, e.length⟩) : e.Anchored r := by
  have hinside : e.offset < e.script.length := by
    apply offset_lt_length
    intro hnil
    rw [hnil] at h
    cases h
  obtain ⟨kind, script, offset, length⟩ := e
  generalize hs : source ⟨kind, script, offset, length⟩ = t at h
  cases h with
  | @openQuotation q value hq =>
    refine ⟨hinside, by rw [hs]; rfl, fun _ => rfl, ?_, nofun, nofun, nofun⟩
    intro q' hq'
    obtain rfl := ErrorKind.unterminatedQuote.inj hq'
    rw [hs]
    exact ⟨hq, not_closed_of_doubled⟩
  | @openReference path hpath =>
    refine ⟨hinside, by rw [hs]; rfl, fun _ => rfl, nofun, ?_, nofun, nofun⟩
    intro _ c hc
    rw [hs] at hc
    exact isPathCharacter_iff.1 (hpath c hc)
  | @refusedCharacter path rest c hpath hc =>
    refine ⟨hinside, by rw [hs]; rfl, fun hno => absurd rfl (hno c), nofun, nofun, ?_, nofun⟩
    intro c' hc'
    obtain rfl := ErrorKind.invalidPathCharacter.inj hc'
    refine ⟨path.length + 2, rfl, by omega, ?_, hc, ?_⟩
    · rw [hs]
      simp
    · intro i d hpos hi hd
      obtain ⟨i, rfl⟩ := Nat.exists_eq_succ_of_ne_zero hpos.ne'
      rw [hs, Nat.succ_eq_add_one, List.getElem?_cons_succ,
        List.getElem?_append_left (by omega)] at hd
      exact isPathCharacter_iff.1 (hpath d (List.mem_of_getElem? hd))

theorem anchored_of_resolve {path rest : Text} (hs : e.source = '<' :: (path ++ '>' :: rest))
    (hpath : ∀ c ∈ path, isPathCharacter c = true)
    (hkind : (r.resolve (referencePath e.script.folder path)).value = .error e.kind)
    (hlength : e.length = none) : e.Anchored r := by
  have hun : e.kind.isUnresolved = true := Resolver.isUnresolved_of_resolve hkind
  refine ⟨offset_lt_length (by simp [hs]), ?_, fun _ => hlength, ?_, ?_, ?_, ?_⟩
  · rw [hs]
    cases hk : e.kind with
    | unterminatedQuote q =>
      rw [hk] at hun
      cases hun
    | _ => rfl
  · intro q hq
    rw [hq] at hun
    cases hun
  · intro hopen
    rw [hopen] at hun
    cases hun
  · intro c hc
    rw [hc] at hun
    cases hun
  · intro _
    refine ⟨path, rest, by rw [hs]; rfl, ?_, hkind⟩
    intro c hc
    exact isPathCharacter_iff.1 (hpath c hc)

theorem anchored_of_stops (h : r.Stops e.script.folder e.source e.kind e.length) :
    e.Anchored r := by
  rcases Resolver.stops_iff.1 h with hdefect | ⟨path, rest, hs, hpath, hkind, hlength⟩
  · exact anchored_of_defect hdefect
  · exact anchored_of_resolve hs hpath hkind hlength

end LexicalError

/-- **Every error stands where its kind says**, behind all tokens of its script. -/
theorem tokenize_error_anchored (r : Resolver) (ss : List Script) (e : LexicalError)
    (he : (r.tokenize ss).value.error = some e) :
    e.script ∈ ss ∧ e.Anchored r ∧
      ∀ a ∈ (r.tokenize ss).value.tokens, a.script = e.script → a.stop ≤ e.offset := by
  obtain ⟨s, hs, he⟩ := Resolver.exists_failing he
  obtain ⟨rfl, ls, -, hlen, hreach, hstop, htokens⟩ := Resolver.exists_stop he
  refine ⟨hs, LexicalError.anchored_of_stops hstop, ?_⟩
  intro a ha hscript
  obtain ⟨s, -, ha⟩ := Resolver.mem_tokenize ha
  obtain rfl := Resolver.script_of_mem_tokenize ha
  rw [hscript, htokens] at ha
  obtain ⟨-, -, hle⟩ := bounds_of_mem_tokensAt hreach.cut.wellFormed ha
  omega

/-- A script whose reference has a refused character, after letters outside ASCII. -/
def refusedBar : Script := ⟨⟨['b']⟩, ['č', 'ž', ' ', '<', 'š', '|', '>']⟩

theorem tokenize_error_anchored_refusedBar :
    let r : Resolver := ⟨['D'], MemoryFiles.empty.fileSystem⟩
    let e : LexicalError := ⟨.invalidPathCharacter '|', refusedBar, 3, some 3⟩
    (r.tokenize [⟨⟨['a']⟩, ['x']⟩, refusedBar]).value.error = some e ∧
      refusedBar ∈ [⟨⟨['a']⟩, ['x']⟩, refusedBar] ∧ e.Anchored r ∧
      ∀ a ∈ (r.tokenize [⟨⟨['a']⟩, ['x']⟩, refusedBar]).value.tokens,
        a.script = refusedBar → a.stop ≤ 3 := by
  intro r e
  have he : (r.tokenize [⟨⟨['a']⟩, ['x']⟩, refusedBar]).value.error = some e := by decide +kernel
  exact ⟨he, tokenize_error_anchored r _ e he⟩

end ScriptLexer
