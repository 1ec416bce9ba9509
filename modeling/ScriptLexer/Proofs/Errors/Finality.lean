import ScriptLexer.Files.Memory
import ScriptLexer.Proofs.Tokens.Moved
import ScriptLexer.Proofs.Tokens.Stop

/-!
# Errors under more text

Text appended to a script with an error either changes nothing or completes what is open.

* A refused character and a reference that stands for nothing are final: whatever is appended, the
  tokens and the error stay.
* A quotation or a reference that nothing closes is open (`ErrorKind.isOpen`). Its closing character
  makes one last token of it, or leaves a complete reference that stands for nothing.

**The proof.** The tokens in front of the error are not touched: a cut only sees the first character
of the text behind it, and that is there already (`Cut.of_head?`). So tokenizing starts again at the
error, with the longer text (`Resolver.value_tokenize_append`). A final stop is a stop in front of
any text (`Resolver.Stops.append`); an open one with its closing character is one whole lexeme.

Main result: `tokenize_append_of_error`.
-/

namespace ScriptLexer

/-- Whether something was not closed, so that more text could complete it. -/
def ErrorKind.isOpen : ErrorKind → Bool
  | unterminatedQuote _ | unterminatedReference => true
  | invalidPathCharacter _ | emptyFileName _ | fileNotFound _ | fileUnreadable _ _ => false

/-- The tokens as tokens of the script `s`, then a text from offset `n` to its end. -/
def Outcome.completed (o : Outcome) (s : Script) (n : Nat) (value : Text) : Outcome :=
  ⟨o.tokens.map (Token.movedTo s 0) ++ [⟨.text, value, s, n, s.length⟩, Token.endOfFile s], none⟩

namespace Resolver

variable {r : Resolver}

/-- **A final stop is a stop in front of any text.** -/
theorem Stops.append {folder : Path} {t : Text} {kind : ErrorKind} {length : Option Nat}
    (h : r.Stops folder t kind length) (hk : kind.isOpen = false) (u : Text) :
    r.Stops folder (t ++ u) kind length := by
  apply stops_iff.2
  rcases stops_iff.1 h with hdefect | ⟨path, rest, rfl, hpath, hkind, hlength⟩
  · left
    cases hdefect with
    | openQuotation _ => cases hk
    | openReference _ => cases hk
    | @refusedCharacter path rest c hpath hc =>
      have htext : '<' :: (path ++ c :: rest) ++ u = '<' :: (path ++ c :: (rest ++ u)) := by simp
      rw [htext]
      exact .refusedCharacter hpath hc
  · right
    exact ⟨path, rest ++ u, by simp, hpath, hkind, hlength⟩

theorem Stops.exists_doubled {folder : Path} {t : Text} {q : Char} {length : Option Nat}
    (h : r.Stops folder t (.unterminatedQuote q) length) :
    isQuote q = true ∧ ∃ value, t = q :: doubled q value := by
  rcases stops_iff.1 h with hdefect | ⟨path, rest, -, -, hkind, -⟩
  · cases hdefect with
    | @openQuotation q value hq => exact ⟨hq, value, rfl⟩
  · cases isUnresolved_of_resolve hkind

theorem Stops.exists_path {folder : Path} {t : Text} {length : Option Nat}
    (h : r.Stops folder t .unterminatedReference length) :
    ∃ path, t = '<' :: path ∧ ∀ c ∈ path, isPathCharacter c = true := by
  rcases stops_iff.1 h with hdefect | ⟨path, rest, -, -, hkind, -⟩
  · cases hdefect with
    | @openReference path hpath => exact ⟨path, rfl, hpath⟩
  · cases isUnresolved_of_resolve hkind

theorem value_tokensFrom_text {s : Script} {n : Nat} {content : Text → Text} {l : Lexeme}
    (hw : l.WellFormed) (hf : r.Finds s.folder content l) :
    (r.tokensFrom s n l.text).value =
      ⟨(l.token? content s n).toList ++ [Token.endOfFile s], none⟩ := by
  have h := value_tokensFrom_append (n := n) hw l.endsBefore_nil hf
  rw [List.append_nil, tokensFrom_nil] at h
  exact h

/-- **The tokens in front of an error stay** when text is appended, and tokenizing starts again at the
error. -/
theorem value_tokenize_append {path : Path} {t : Text} {e : LexicalError}
    (he : (r.tokenize [⟨path, t⟩]).value.error = some e) :
    r.Stops path.folder (t.drop e.offset) e.kind e.length ∧
      ∀ u, (r.tokenize [⟨path, t ++ u⟩]).value =
        (r.tokensFrom ⟨path, t ++ u⟩ e.offset (t.drop e.offset ++ u)).value.prepend
          ((r.tokenize [⟨path, t⟩]).value.tokens.map (Token.movedTo ⟨path, t ++ u⟩ 0)) := by
  obtain ⟨hscript, ls, ht, hlen, hreach, hstop, htokens⟩ := exists_stop he
  have hsource : t.drop e.offset = e.source := by rw [LexicalError.source, hscript]
  rw [hsource]
  refine ⟨hstop, ?_⟩
  intro u
  have hhead : e.source.head? = (e.source ++ u).head? := by
    obtain ⟨c, rest, hcons⟩ := List.exists_cons_of_ne_nil hstop.ne_nil
    rw [hcons]
    rfl
  have hlonger : r.Reaches path.folder (r.content path.folder) ls (e.source ++ u) :=
    ⟨hreach.cut.of_head? hhead, hreach.finds⟩
  have hrun := hlonger.value_tokensFrom (s := ⟨path, t ++ u⟩) 0
  have htext : t ++ u = written ls ++ (e.source ++ u) := by rw [← List.append_assoc, ← ht]
  rw [← htext, hlen, Nat.zero_add] at hrun
  rw [value_tokenize_singleton, hrun, htokens, tokensAt_movedTo]
  rfl

/-- An appended text that makes one whole lexeme of what has failed makes it the last token. -/
theorem value_tokenize_complete {path : Path} {t u : Text} {e : LexicalError}
    (he : (r.tokenize [⟨path, t⟩]).value.error = some e) {content : Text → Text} {l : Lexeme}
    {value : Text} (hl : t.drop e.offset ++ u = l.text) (hw : l.WellFormed)
    (hf : r.Finds path.folder content l) (hm : l.meaning content = some (.text, value)) :
    (r.tokenize [⟨path, t ++ u⟩]).value =
      (r.tokenize [⟨path, t⟩]).value.completed ⟨path, t ++ u⟩ e.offset value := by
  obtain ⟨hstop, hrun⟩ := value_tokenize_append he
  have hlast := value_tokensFrom_text (s := ⟨path, t ++ u⟩) (n := e.offset) hw hf
  have hend : e.offset + l.length = (t ++ u).length := by
    have hlt : ¬ t.length ≤ e.offset := by
      intro hle
      exact hstop.ne_nil (List.drop_eq_nil_iff.2 hle)
    rw [Lexeme.length, ← hl, List.length_append, List.length_drop, List.length_append]
    omega
  rw [hrun, hl, hlast, Lexeme.token?, hm, Option.map_some, hend]
  rfl

end Resolver

/-- **What more text does to an error.** A final error stays whatever is appended. An open quotation is
completed by its quote. An open reference is completed by `>`: its file is found, or the error is then
how looking for it fails. -/
theorem tokenize_append_of_error (r : Resolver) (path : Path) (t : Text) (e : LexicalError)
    (he : (r.tokenize [⟨path, t⟩]).value.error = some e) :
    (e.kind.isOpen = false → ∀ u, (r.tokenize [⟨path, t ++ u⟩]).value =
      (r.tokenize [⟨path, t⟩]).value.movedTo ⟨path, t ++ u⟩ 0) ∧
    (∀ q, e.kind = .unterminatedQuote q → ∃ value, t.drop (e.offset + 1) = doubled q value ∧
      (r.tokenize [⟨path, t ++ [q]⟩]).value =
        (r.tokenize [⟨path, t⟩]).value.completed ⟨path, t ++ [q]⟩ e.offset value) ∧
    (e.kind = .unterminatedReference →
      (∃ value, (r.tokenize [⟨path, t ++ ['>']⟩]).value =
        (r.tokenize [⟨path, t⟩]).value.completed ⟨path, t ++ ['>']⟩ e.offset value) ∨
      ∃ kind, kind.isUnresolved = true ∧ (r.tokenize [⟨path, t ++ ['>']⟩]).value =
        ⟨(r.tokenize [⟨path, t⟩]).value.tokens.map (Token.movedTo ⟨path, t ++ ['>']⟩ 0),
          some ⟨kind, ⟨path, t ++ ['>']⟩, e.offset, none⟩⟩) := by
  obtain ⟨hstop, hrun⟩ := Resolver.value_tokenize_append he
  refine ⟨?_, ?_, ?_⟩
  · intro hk u
    have hlonger : r.Stops (Script.folder ⟨path, t ++ u⟩) (t.drop e.offset ++ u) e.kind e.length :=
      hstop.append hk u
    rw [hrun, hlonger.value_tokensFrom, Outcome.movedTo, he]
    simp [Outcome.prepend, Outcome.failed, LexicalError.movedTo]
  · intro q hq
    rw [hq] at hstop
    obtain ⟨hquote, value, hsource⟩ := hstop.exists_doubled
    refine ⟨value, ?_, ?_⟩
    · rw [← List.tail_drop, hsource]
      rfl
    · have hclosed : t.drop e.offset ++ [q] = (Lexeme.quoted q value).text := by rw [hsource]; rfl
      have hfinds : r.Finds path.folder (r.content path.folder) (.quoted q value) := by
        intro p hp
        cases hp
      exact Resolver.value_tokenize_complete he hclosed hquote hfinds rfl
  · intro hopen
    rw [hopen] at hstop
    obtain ⟨p, hsource, hp⟩ := hstop.exists_path
    have hclosed : t.drop e.offset ++ ['>'] = (Lexeme.reference p).text := by rw [hsource]; rfl
    rcases r.finds_or_error path.folder (.reference p) with hfinds | ⟨p', kind, hp', hkind⟩
    · exact .inl ⟨_, Resolver.value_tokenize_complete he hclosed hp hfinds rfl⟩
    · obtain rfl := Lexeme.reference.inj hp'
      refine .inr ⟨kind, Resolver.isUnresolved_of_resolve hkind, ?_⟩
      have hfails : r.Stops (Script.folder ⟨path, t ++ ['>']⟩) ((Lexeme.reference p).text ++ [])
          kind none := .unresolved hp hkind
      rw [List.append_nil] at hfails
      rw [hrun, hclosed, hfails.value_tokensFrom]
      simp [Outcome.prepend, Outcome.failed]

/-- One script for each sort of error: a refused character, a quotation whose last two quotes do not
close it, and a reference that lacks its end. -/
theorem tokenize_append_of_error_samples :
    let r : Resolver := ⟨['D'], (MemoryFiles.ofList [(⟨['f']⟩, ['A'])]).fileSystem⟩
    let script (t : Text) : Script := ⟨⟨['m']⟩, t⟩
    let refused : Text := ['x', '<', '|']
    let quotation : Text := ['x', '\'', 'a', '\'', '\'']
    let reference : Text := ['x', '<', 'f']
    ((r.tokenize [script refused]).value.error =
        some ⟨.invalidPathCharacter '|', script refused, 1, some 2⟩ ∧
      (r.tokenize [script (refused ++ ['>', '\''])]).value =
        (r.tokenize [script refused]).value.movedTo (script (refused ++ ['>', '\''])) 0) ∧
    ((r.tokenize [script quotation]).value.error =
        some ⟨.unterminatedQuote '\'', script quotation, 1, none⟩ ∧
      ∃ value, quotation.drop 2 = doubled '\'' value ∧
        (r.tokenize [script (quotation ++ ['\''])]).value =
          (r.tokenize [script quotation]).value.completed (script (quotation ++ ['\''])) 1 value) ∧
    ((r.tokenize [script reference]).value.error =
        some ⟨.unterminatedReference, script reference, 1, none⟩ ∧
      ((∃ value, (r.tokenize [script (reference ++ ['>'])]).value =
          (r.tokenize [script reference]).value.completed (script (reference ++ ['>'])) 1 value) ∨
        ∃ kind, kind.isUnresolved = true ∧ (r.tokenize [script (reference ++ ['>'])]).value =
          ⟨(r.tokenize [script reference]).value.tokens.map
              (Token.movedTo (script (reference ++ ['>'])) 0),
            some ⟨kind, script (reference ++ ['>']), 1, none⟩⟩)) := by
  intro r script refused quotation reference
  have hrefused : (r.tokenize [script refused]).value.error =
      some ⟨.invalidPathCharacter '|', script refused, 1, some 2⟩ := by decide +kernel
  have hquotation : (r.tokenize [script quotation]).value.error =
      some ⟨.unterminatedQuote '\'', script quotation, 1, none⟩ := by decide +kernel
  have hreference : (r.tokenize [script reference]).value.error =
      some ⟨.unterminatedReference, script reference, 1, none⟩ := by decide +kernel
  refine ⟨⟨hrefused, ?_⟩, ⟨hquotation, ?_⟩, hreference, ?_⟩
  · exact (tokenize_append_of_error r ⟨['m']⟩ refused _ hrefused).1 rfl ['>', '\'']
  · exact (tokenize_append_of_error r ⟨['m']⟩ quotation _ hquotation).2.1 '\'' rfl
  · exact (tokenize_append_of_error r ⟨['m']⟩ reference _ hreference).2.2 rfl

end ScriptLexer
