import ScriptLexer.Proofs.Lexeme.Defect

/-!
# Quotations

A quotation is a quote, a value with that quote doubled, and the quote once more. It ends there, so
the text behind it must not start with the same quote. `IsQuotation` says this of a text from the
outside, by how the quotation is written and without a reader.

**The reader finds the quotations and nothing else** (`readQuoted_exact`). A text is read if and
only if it starts with a quotation, and then as that one. A quote that starts no quotation is a
fault, and a text without a quote in front is left to other readers.

**A text starts with one quotation at most** (`IsQuotation.unique`). Inside the value quotes come in
pairs, so a run of quotes closes the quotation if it is odd, and with its last quote. The proof needs
no counting: two quotations at the start of one text would both be read, and the reader has one
answer.
-/

namespace ScriptLexer

/-- The text starts with a quotation of `value`, and `rest` is behind it. -/
structure IsQuotation (q : Char) (value rest t : Text) : Prop where
  written : t = q :: (doubled q value ++ q :: rest)
  ends : rest.head? ≠ some q

namespace IsQuotation

variable {q : Char} {value rest t : Text}

/-- **A quotation is read back.** -/
theorem readQuoted_eq (h : IsQuotation q value rest t) (hq : isQuote q = true) :
    readQuoted t = .read value rest := by
  rw [h.written]
  exact readQuoted_append hq h.ends

/-- **A text starts with one quotation at most.** -/
theorem unique {value' rest' : Text} (h : IsQuotation q value rest t)
    (h' : IsQuotation q value' rest' t) (hq : isQuote q = true) :
    value = value' ∧ rest = rest' :=
  Reading.read.inj ((h.readQuoted_eq hq).symm.trans (h'.readQuoted_eq hq))

end IsQuotation

theorem isQuote_of_readQuoted {q : Char} {t value rest : Text}
    (h : readQuoted (q :: t) = .read value rest) : isQuote q = true := by
  cases hq : isQuote q with
  | true => rfl
  | false =>
    rw [readQuoted, hq] at h
    cases h

theorem isQuotation_of_readQuoted {q : Char} {t value rest : Text}
    (h : readQuoted (q :: t) = .read value rest) : IsQuotation q value rest (q :: t) := by
  obtain ⟨hwritten, -⟩ := readQuoted_eq h
  refine ⟨?_, endsBefore_of_readQuoted h⟩
  rw [hwritten]
  simp [Lexeme.text]

theorem readQuoted_eq_read_iff {q : Char} (hq : isQuote q = true) {t value rest : Text} :
    readQuoted (q :: t) = .read value rest ↔ IsQuotation q value rest (q :: t) :=
  ⟨isQuotation_of_readQuoted, fun h => h.readQuoted_eq hq⟩

/-- **A quote is a fault if it starts no quotation.** -/
theorem readQuoted_eq_fault_iff_not {q : Char} (hq : isQuote q = true) {t : Text} :
    readQuoted (q :: t) = .fault ⟨.unterminatedQuote q, none⟩ ↔
      ¬ ∃ value rest, IsQuotation q value rest (q :: t) := by
  simp only [← readQuoted_eq_read_iff hq]
  rw [readQuoted, if_pos hq]
  cases quotedBody q t <;> simp

theorem readQuoted_eq_mismatch_iff {t : Text} :
    readQuoted t = .mismatch ↔ ∀ q, t.head? = some q → isQuote q = false := by
  cases t with
  | nil => simp [readQuoted]
  | cons q t =>
    cases hq : isQuote q with
    | false => simp [readQuoted, hq]
    | true => cases hbody : quotedBody q t <;> simp [readQuoted, hq, hbody]

/-- **The reader of quoted texts finds the quotations, and nothing else.** A text is read as the
quotation that it starts with. Behind a quote there is one way to read it, or a fault; without a
quote in front the text is refused. Whatever the value, writing it between quotes and reading it
gives it back. -/
theorem readQuoted_exact :
    (∀ t value rest, readQuoted t = .read value rest ↔
      ∃ q, isQuote q = true ∧ IsQuotation q value rest t) ∧
    (∀ q t, isQuote q = true → t.head? = some q →
      (∀ value rest, readQuoted t = .read value rest ↔ IsQuotation q value rest t) ∧
      (∀ value rest value' rest', IsQuotation q value rest t → IsQuotation q value' rest' t →
        value = value' ∧ rest = rest') ∧
      (readQuoted t = .fault ⟨.unterminatedQuote q, none⟩ ↔
        ¬ ∃ value rest, IsQuotation q value rest t)) ∧
    (∀ t, readQuoted t = .mismatch ↔ ∀ q, t.head? = some q → isQuote q = false) ∧
    (∀ q value rest, isQuote q = true → rest.head? ≠ some q →
      readQuoted (q :: (doubled q value ++ q :: rest)) = .read value rest) := by
  refine ⟨?_, ?_, fun _ => readQuoted_eq_mismatch_iff, ?_⟩
  · intro t value rest
    refine ⟨fun h => ?_, fun ⟨q, hq, h⟩ => h.readQuoted_eq hq⟩
    cases t with
    | nil => cases h
    | cons q t => exact ⟨q, isQuote_of_readQuoted h, isQuotation_of_readQuoted h⟩
  · intro q t hq hhead
    obtain ⟨t, rfl⟩ := List.head?_eq_some_iff.1 hhead
    exact ⟨fun _ _ => readQuoted_eq_read_iff hq, fun _ _ _ _ h h' => h.unique h' hq,
      readQuoted_eq_fault_iff_not hq⟩
  · intro q value rest hq hends
    exact IsQuotation.readQuoted_eq ⟨rfl, hends⟩ hq

/-- Three quotes in a row are a pair and the end; four are two pairs, and the end is missing. -/
example :
    readQuoted ['\'', 'a', '\'', '\'', '\'', 'b'] = .read ['a', '\''] ['b'] ∧
      readQuoted ['\'', 'a', '\'', '\'', '\'', '\'', 'b'] =
        .fault ⟨.unterminatedQuote '\'', none⟩ := by
  decide

end ScriptLexer
