import Mathlib.Data.Finset.Lattice.Fold
import Mathlib.Data.Finset.Prod
import Mathlib.Data.Prod.Lex
import Mathlib.Order.Lattice.Nat
import ScriptLexer.Script

/-!
# Positions and lines

**The lines of a text** (`Text.lineEnds`). Carriage return and line feed end a line together; each
of them ends one where it stands alone. `Position.inLines` counts: the line of an offset is one more
than the line ends that lie before it, and its column is one more than the characters behind the
last of these.

**The walk and the count agree** (`Position.of_eq_inLines`), except at one sort of offset. Between
a carriage return and a line feed the walk has seen the carriage return alone, so it is on the next
line already, and the count is not. There the walk gives the position behind the pair.

**The proof** goes from one offset to the next. The walk makes a step of its own
(`Position.of_succ`), and a step of the count depends on whether a line ends there
(`Position.inLines_succ_of_endsLine`, `Position.inLines_succ_of_not`).

**Positions are ordered** by line, then by column. Walking on never goes back, and stands still only
across the line feed of such a pair (`Position.of_lt_of_lt`, `Position.of_eq_of_iff`).

Main result: `position_eq_inLines_iff`.
-/

namespace ScriptLexer

/-! ## The order of positions -/

namespace Position

def key (p : Position) : ℕ ×ₗ ℕ := toLex (p.line, p.column)

theorem key_injective : Function.Injective key := by
  intro p q h
  cases p
  cases q
  simpa [key] using h

instance : LinearOrder Position := LinearOrder.lift' key key_injective

theorem lt_iff {p q : Position} :
    p < q ↔ p.line < q.line ∨ p.line = q.line ∧ p.column < q.column :=
  Prod.Lex.lt_iff

end Position

/-! ## Line ends -/

namespace Text

/-- The characters from offset `i` to before offset `j` end a line: a carriage return and a line
feed together, a line feed that is not behind a carriage return, or a carriage return that is not in
front of a line feed. -/
def EndsLine (t : Text) (i j : Nat) : Prop :=
  (t[i]? = some '\r' ∧ t[i + 1]? = some '\n' ∧ j = i + 2) ∨
    (t[i]? = some '\n' ∧ (i = 0 ∨ t[i - 1]? ≠ some '\r') ∧ j = i + 1) ∨
    (t[i]? = some '\r' ∧ t[i + 1]? ≠ some '\n' ∧ j = i + 1)

instance (t : Text) (i j : Nat) : Decidable (t.EndsLine i j) :=
  inferInstanceAs (Decidable (_ ∨ _ ∨ _))

/-- The line ends that lie before an offset, each with its own two offsets. -/
def lineEnds (t : Text) (offset : Nat) : Finset (Nat × Nat) :=
  (Finset.range offset ×ˢ Finset.range (offset + 1)).filter fun e => t.EndsLine e.1 e.2

/-- The end of the last line end before an offset; the start of the text if there is none. -/
def lineStart (t : Text) (offset : Nat) : Nat := (t.lineEnds offset).sup Prod.snd

/-- The offset is between a carriage return and a line feed. -/
def IsInLineEnd (t : Text) (offset : Nat) : Prop :=
  Position.SplitsLineEnd (t.take offset) (t.drop offset)

instance (t : Text) (offset : Nat) : Decidable (t.IsInLineEnd offset) :=
  inferInstanceAs (Decidable (_ ∧ _))

variable {t : Text} {i j offset : Nat}

theorem EndsLine.lt (h : t.EndsLine i j) : i < j := by
  rcases h with ⟨-, -, rfl⟩ | ⟨-, -, rfl⟩ | ⟨-, -, rfl⟩ <;> omega

theorem mem_lineEnds : (i, j) ∈ t.lineEnds offset ↔ t.EndsLine i j ∧ j ≤ offset := by
  rw [lineEnds, Finset.mem_filter, Finset.mem_product, Finset.mem_range, Finset.mem_range]
  constructor
  · intro ⟨⟨_, hj⟩, h⟩
    exact ⟨h, Nat.le_of_lt_succ hj⟩
  · intro ⟨h, hj⟩
    exact ⟨⟨h.lt.trans_le hj, Nat.lt_succ_of_le hj⟩, h⟩

/-- **Where a line end ends.** -/
theorem exists_endsLine_iff :
    (∃ i, t.EndsLine i (j + 1)) ↔
      t[j]? = some '\n' ∨ t[j]? = some '\r' ∧ t[j + 1]? ≠ some '\n' := by
  constructor
  · intro ⟨i, h⟩
    rcases h with ⟨-, hlf, hj⟩ | ⟨hlf, -, hj⟩ | ⟨hcr, hlf, hj⟩
    · obtain rfl : j = i + 1 := by omega
      exact .inl hlf
    · obtain rfl : j = i := by omega
      exact .inl hlf
    · obtain rfl : j = i := by omega
      exact .inr ⟨hcr, hlf⟩
  · intro h
    rcases h with hlf | ⟨hcr, hlf⟩
    · by_cases halone : j = 0 ∨ t[j - 1]? ≠ some '\r'
      · exact ⟨j, .inr (.inl ⟨hlf, halone, rfl⟩)⟩
      · rw [not_or, not_not] at halone
        obtain ⟨hpos, hcr⟩ := halone
        obtain ⟨i, rfl⟩ := Nat.exists_eq_succ_of_ne_zero hpos
        exact ⟨i, .inl ⟨hcr, hlf, rfl⟩⟩
    · exact ⟨j, .inr (.inr ⟨hcr, hlf, rfl⟩)⟩

theorem EndsLine.start_unique {i' : Nat} (h : t.EndsLine i j) (h' : t.EndsLine i' j) : i = i' := by
  rcases h with ⟨hcr, hlf, rfl⟩ | ⟨hc, halone, rfl⟩ | ⟨hc, -, rfl⟩ <;>
    rcases h' with ⟨hcr', hlf', hj⟩ | ⟨hc', halone', hj⟩ | ⟨hc', -, hj⟩ <;> try omega
  · obtain rfl : i' = i + 1 := by omega
    simp [hcr] at halone'
  · obtain rfl : i' = i + 1 := by omega
    simp [hlf] at hc'
  · obtain rfl : i = i' + 1 := by omega
    simp [hcr'] at halone
  · obtain rfl : i = i' + 1 := by omega
    simp [hlf'] at hc

theorem lineEnds_succ_of_endsLine (h : t.EndsLine i (offset + 1)) :
    t.lineEnds (offset + 1) = insert (i, offset + 1) (t.lineEnds offset) := by
  ext ⟨k, j⟩
  rw [Finset.mem_insert, mem_lineEnds, mem_lineEnds, Prod.mk.injEq]
  constructor
  · intro ⟨hk, hj⟩
    rcases Nat.lt_or_eq_of_le hj with hj | rfl
    · exact .inr ⟨hk, Nat.le_of_lt_succ hj⟩
    · exact .inl ⟨hk.start_unique h, rfl⟩
  · intro hmem
    rcases hmem with ⟨rfl, rfl⟩ | ⟨hk, hj⟩
    · exact ⟨h, le_refl _⟩
    · exact ⟨hk, hj.trans (Nat.le_succ offset)⟩

theorem lineEnds_succ_of_not (h : ¬ ∃ i, t.EndsLine i (offset + 1)) :
    t.lineEnds (offset + 1) = t.lineEnds offset := by
  ext ⟨k, j⟩
  rw [mem_lineEnds, mem_lineEnds]
  constructor
  · intro ⟨hk, hj⟩
    rcases Nat.lt_or_eq_of_le hj with hj | rfl
    · exact ⟨hk, Nat.le_of_lt_succ hj⟩
    · exact absurd ⟨k, hk⟩ h
  · intro ⟨hk, hj⟩
    exact ⟨hk, hj.trans (Nat.le_succ offset)⟩

theorem notMem_lineEnds : (i, offset + 1) ∉ t.lineEnds offset := by
  rw [mem_lineEnds]
  omega

theorem lineStart_le (t : Text) (offset : Nat) : t.lineStart offset ≤ offset :=
  Finset.sup_le fun ⟨_, _⟩ he => (mem_lineEnds.1 he).2

/-! ## Inside a line end -/

theorem take_succ_eq {c : Char} (h : t[offset]? = some c) :
    t.take (offset + 1) = t.take offset ++ [c] := by
  rw [List.take_add_one, h]
  rfl

@[simp] theorem not_isInLineEnd_zero : ¬ t.IsInLineEnd 0 := by
  simp [IsInLineEnd, Position.SplitsLineEnd]

theorem isInLineEnd_succ_iff :
    t.IsInLineEnd (offset + 1) ↔ t[offset]? = some '\r' ∧ t[offset + 1]? = some '\n' := by
  rw [IsInLineEnd, Position.SplitsLineEnd, List.head?_drop]
  cases hc : t[offset]? with
  | some c => rw [take_succ_eq hc, List.getLast?_concat]
  | none =>
    have hlen : t.length ≤ offset := List.getElem?_eq_none_iff.1 hc
    simp [List.getElem?_eq_none (Nat.le_succ_of_le hlen)]

theorem IsInLineEnd.getElem?_eq (h : t.IsInLineEnd offset) : t[offset]? = some '\n' := by
  rw [← List.head?_drop]
  exact h.2

theorem IsInLineEnd.not_succ (h : t.IsInLineEnd offset) : ¬ t.IsInLineEnd (offset + 1) := by
  intro hsucc
  obtain ⟨hcr, -⟩ := isInLineEnd_succ_iff.1 hsucc
  rw [h.getElem?_eq] at hcr
  cases hcr

theorem IsInLineEnd.lt_length (h : t.IsInLineEnd offset) : offset < t.length :=
  (List.getElem?_eq_some_iff.1 h.getElem?_eq).1

end Text

namespace Position

/-- The position of an offset by the lines of the text: one more than the line ends before it, and
one more than the characters behind the last of them. -/
def inLines (t : Text) (offset : Nat) : Position :=
  ⟨1 + (t.lineEnds offset).card, 1 + (offset - t.lineStart offset)⟩

variable {t : Text} {m n offset : Nat}

/-! ## One step of the count -/

theorem inLines_zero (t : Text) : inLines t 0 = first := by
  have hnone : t.lineEnds 0 = ∅ := rfl
  rw [inLines, Text.lineStart, hnone]
  rfl

theorem inLines_succ_of_endsLine (h : ∃ i, t.EndsLine i (offset + 1)) :
    inLines t (offset + 1) = ⟨(inLines t offset).line + 1, 1⟩ := by
  obtain ⟨i, hi⟩ := h
  have hstart : t.lineStart (offset + 1) = offset + 1 := by
    rw [Text.lineStart, Text.lineEnds_succ_of_endsLine hi, Finset.sup_insert]
    exact max_eq_left ((t.lineStart_le offset).trans (Nat.le_succ offset))
  rw [inLines, hstart, Text.lineEnds_succ_of_endsLine hi,
    Finset.card_insert_of_notMem Text.notMem_lineEnds, Nat.sub_self]
  rfl

theorem inLines_succ_of_not (h : ¬ ∃ i, t.EndsLine i (offset + 1)) :
    inLines t (offset + 1) = ⟨(inLines t offset).line, (inLines t offset).column + 1⟩ := by
  have hstart : t.lineStart (offset + 1) = t.lineStart offset := by
    rw [Text.lineStart, Text.lineEnds_succ_of_not h]
    rfl
  rw [inLines, hstart, Text.lineEnds_succ_of_not h, Nat.succ_sub (t.lineStart_le offset)]
  rfl

/-! ## One step of the walk -/

theorem of_succ {c : Char} (h : t[offset]? = some c) (hin : ¬ t.IsInLineEnd offset) :
    of t (offset + 1) = (of t offset).past c none := by
  have hcut : ¬ SplitsLineEnd (t.take offset) [c] := by
    rwa [SplitsLineEnd, List.head?_cons, ← h, ← List.head?_drop]
  rw [of, Text.take_succ_eq h, advance_append hcut]
  rfl

theorem of_succ_of_lineEnd {c : Char} (h : t[offset]? = some c) (hin : ¬ t.IsInLineEnd offset)
    (hc : c = '\r' ∨ c = '\n') : of t (offset + 1) = ⟨(of t offset).line + 1, 1⟩ := by
  rw [of_succ h hin, past, if_neg (by simp), if_pos hc]

theorem of_succ_of_not {c : Char} (h : t[offset]? = some c) (hc : ¬ (c = '\r' ∨ c = '\n')) :
    of t (offset + 1) = ⟨(of t offset).line, (of t offset).column + 1⟩ := by
  have hin : ¬ t.IsInLineEnd offset := by
    intro hin
    rw [hin.getElem?_eq] at h
    exact hc (.inr (Option.some.inj h).symm)
  rw [of_succ h hin, past, if_neg (by simp), if_neg hc]

/-- **The walk stands still across the line feed of a pair**: the carriage return has ended the line
as long as it was the last character. -/
theorem of_succ_of_isInLineEnd (h : t.IsInLineEnd offset) : of t (offset + 1) = of t offset := by
  cases offset with
  | zero => exact absurd h Text.not_isInLineEnd_zero
  | succ k =>
    obtain ⟨hcr, hlf⟩ := Text.isInLineEnd_succ_iff.1 h
    have hin : ¬ t.IsInLineEnd k := fun hin => hin.not_succ h
    have hpair : t.take (k + 2) = t.take k ++ ['\r', '\n'] := by
      rw [Text.take_succ_eq hlf, Text.take_succ_eq hcr, List.append_assoc]
      rfl
    have hcut : ¬ SplitsLineEnd (t.take k) ['\r', '\n'] := by simp [SplitsLineEnd]
    rw [of_succ_of_lineEnd hcr hin (.inl rfl), of, hpair, advance_append hcut]
    rfl

/-! ## The walk and the count -/

/-- **The walk is the count, but for the offset inside a pair**, where it is on the next line. -/
theorem of_eq_inLines (h : offset ≤ t.length) :
    of t offset =
      if t.IsInLineEnd offset then ⟨(inLines t offset).line + 1, 1⟩ else inLines t offset := by
  induction offset with
  | zero => rw [if_neg Text.not_isInLineEnd_zero, inLines_zero]; rfl
  | succ k ih =>
    have hk := ih (Nat.le_of_succ_le h)
    obtain ⟨c, hc⟩ : ∃ c, t[k]? = some c := ⟨t[k], List.getElem?_eq_getElem h⟩
    by_cases hin : t.IsInLineEnd k
    · have hends := Text.exists_endsLine_iff.2 (.inl hin.getElem?_eq)
      rw [of_succ_of_isInLineEnd hin, hk, if_pos hin, if_neg hin.not_succ,
        inLines_succ_of_endsLine hends]
    · rw [if_neg hin] at hk
      by_cases hend : c = '\r' ∨ c = '\n'
      · rw [of_succ_of_lineEnd hc hin hend, hk]
        by_cases hsucc : t.IsInLineEnd (k + 1)
        · -- The walk is ahead: the line feed that ends the line is still to come.
          obtain ⟨hcr, hlf⟩ := Text.isInLineEnd_succ_iff.1 hsucc
          have hnot : ¬ ∃ i, t.EndsLine i (k + 1) := by
            rw [Text.exists_endsLine_iff, hcr, hlf]
            simp
          rw [if_pos hsucc, inLines_succ_of_not hnot]
        · have hends : ∃ i, t.EndsLine i (k + 1) := by
            rw [Text.isInLineEnd_succ_iff] at hsucc
            apply Text.exists_endsLine_iff.2
            rcases hend with rfl | rfl
            · exact .inr ⟨hc, fun hlf => hsucc ⟨hc, hlf⟩⟩
            · exact .inl hc
          rw [if_neg hsucc, inLines_succ_of_endsLine hends]
      · have hcr : t[k]? ≠ some '\r' := fun h => hend (.inl (Option.some.inj (hc.symm.trans h)))
        have hlf : t[k]? ≠ some '\n' := fun h => hend (.inr (Option.some.inj (hc.symm.trans h)))
        have hnot : ¬ ∃ i, t.EndsLine i (k + 1) := by
          rw [Text.exists_endsLine_iff]
          exact fun h => h.elim hlf fun h => hcr h.1
        have hsucc : ¬ t.IsInLineEnd (k + 1) := fun h => hcr (Text.isInLineEnd_succ_iff.1 h).1
        rw [of_succ_of_not hc hend, hk, if_neg hsucc, inLines_succ_of_not hnot]

theorem of_min (t : Text) (offset : Nat) : of t (min offset t.length) = of t offset := by
  rcases Nat.le_total offset t.length with h | h
  · rw [Nat.min_eq_left h]
  · rw [Nat.min_eq_right h, of_eq_of_length_le h, of_eq_of_length_le (le_refl _)]

/-- Inside a pair the walk gives the position behind the pair. -/
theorem of_eq_inLines_succ (h : t.IsInLineEnd offset) : of t offset = inLines t (offset + 1) := by
  rw [of_eq_inLines h.lt_length.le, if_pos h,
    inLines_succ_of_endsLine (Text.exists_endsLine_iff.2 (.inl h.getElem?_eq))]

/-! ## Walking on -/

theorem of_lt_of_succ (h : offset < t.length) (hin : ¬ t.IsInLineEnd offset) :
    of t offset < of t (offset + 1) := by
  have hc : t[offset]? = some t[offset] := List.getElem?_eq_getElem h
  rw [lt_iff]
  by_cases hend : t[offset] = '\r' ∨ t[offset] = '\n'
  · rw [of_succ_of_lineEnd hc hin hend]
    exact .inl (Nat.lt_succ_self _)
  · rw [of_succ_of_not hc hend]
    exact .inr ⟨rfl, Nat.lt_succ_self _⟩

/-- **Walking on never goes back.** -/
theorem of_le_of_le (h : m ≤ n) (hn : n ≤ t.length) : of t m ≤ of t n := by
  induction n, h using Nat.le_induction with
  | base => exact le_refl _
  | succ k _ ih =>
    refine (ih (Nat.le_of_succ_le hn)).trans ?_
    by_cases hin : t.IsInLineEnd k
    · exact (of_succ_of_isInLineEnd hin).ge
    · exact (of_lt_of_succ hn hin).le

/-- **Walking on from outside a pair goes on.** -/
theorem of_lt_of_lt (h : m < n) (hn : n ≤ t.length) (hin : ¬ t.IsInLineEnd m) :
    of t m < of t n :=
  (of_lt_of_succ (h.trans_le hn) hin).trans_le (of_le_of_le h hn)

/-- **Two offsets have one position only if they are the two around a line feed of a pair.** -/
theorem of_eq_of_iff (h : m < n) (hn : n ≤ t.length) :
    of t m = of t n ↔ t.IsInLineEnd m ∧ n = m + 1 := by
  constructor
  · intro heq
    have hin : t.IsInLineEnd m := by
      by_contra hin
      exact (of_lt_of_lt h hn hin).ne heq
    refine ⟨hin, ?_⟩
    by_contra hne
    have hlt : m + 1 < n := lt_of_le_of_ne h (Ne.symm hne)
    exact (of_lt_of_lt hlt hn hin.not_succ).ne ((of_succ_of_isInLineEnd hin).trans heq)
  · intro ⟨hin, hn⟩
    rw [hn, of_succ_of_isInLineEnd hin]

end Position

/-- **Positions follow the lines, except inside a pair of carriage return and line feed.** An offset
past the end is the end. Its position is one more than the line ends before it, and one more than
the characters behind the last of them, if and only if the offset is not inside such a pair; there
it is the position behind the pair. Two offsets of a text have one position only if they are the two
around the line feed of a pair. -/
theorem position_eq_inLines_iff (s : Script) (offset : Nat) :
    let o := min offset s.length
    (s.position offset = Position.inLines s.text o ↔ ¬ s.text.IsInLineEnd o) ∧
      (s.text.IsInLineEnd o → s.position offset = Position.inLines s.text (o + 1)) ∧
      ∀ m n, m < n → n ≤ s.length →
        (s.position m = s.position n ↔ s.text.IsInLineEnd m ∧ n = m + 1) := by
  intro o
  have ho : o ≤ s.text.length := Nat.min_le_right _ _
  have hposition : s.position offset = Position.of s.text o := (Position.of_min _ _).symm
  refine ⟨?_, ?_, fun m n h hn => Position.of_eq_of_iff h hn⟩
  · rw [hposition, Position.of_eq_inLines ho]
    by_cases hin : s.text.IsInLineEnd o
    · rw [if_pos hin]
      refine iff_of_false (fun heq => ?_) (not_not.2 hin)
      have hline := congrArg Position.line heq
      exact Nat.succ_ne_self _ hline
    · rw [if_neg hin]
      exact iff_of_true rfl hin
  · intro hin
    rw [hposition]
    exact Position.of_eq_inLines_succ hin

/-- **Between a carriage return and a line feed the position is not that of the lines.** Offset 2 of
this text is on its first line, which ends behind the line feed only. -/
theorem position_inside_lineEnd :
    let s : Script := ⟨⟨['a']⟩, ['a', '\r', '\n']⟩
    s.position 2 = ⟨2, 1⟩ ∧ Position.inLines s.text 2 = ⟨1, 3⟩ ∧ s.position 2 = s.position 3 := by
  decide +kernel

end ScriptLexer
