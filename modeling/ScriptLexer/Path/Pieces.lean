import ScriptLexer.Text.Basic

/-!
# Pieces of a path text

`pieces` cuts a text at every `/`; `joined` puts pieces together again. There is always at least
one piece, and a piece may be empty.

* `joined_pieces`: cutting loses nothing.
* `pieces_joined`: pieces without `/` are found again.
-/

namespace ScriptLexer.Path

/-- The parts of a text between its separators. -/
def pieces : Text → List Text
  | [] => [[]]
  | c :: rest =>
    if c = '/' then [] :: pieces rest
    else
      match pieces rest with
      | [] => [[c]]
      | p :: ps => (c :: p) :: ps

/-- The pieces with a separator between neighbours. -/
def joined : List Text → Text
  | [] => []
  | [p] => p
  | p :: q :: ps => p ++ '/' :: joined (q :: ps)

theorem pieces_ne_nil (t : Text) : pieces t ≠ [] := by
  cases t with
  | nil => simp [pieces]
  | cons c t => simp only [pieces]; split <;> (try split) <;> simp

@[simp] theorem pieces_slash (t : Text) : pieces ('/' :: t) = [] :: pieces t := by simp [pieces]

theorem pieces_cons {c : Char} (h : c ≠ '/') (t : Text) :
    pieces (c :: t) = (c :: (pieces t).head (pieces_ne_nil t)) :: (pieces t).tail := by
  simp only [pieces, h, if_false]
  split
  · next e => exact absurd e (pieces_ne_nil t)
  · next e => simp [e]

theorem joined_cons {p : Text} {ps : List Text} (h : ps ≠ []) :
    joined (p :: ps) = p ++ '/' :: joined ps := by
  cases ps with
  | nil => exact absurd rfl h
  | cons q ps => rfl

/-- A character in front of the first piece. -/
theorem joined_cons_cons (c : Char) (p : Text) (ps : List Text) :
    joined ((c :: p) :: ps) = c :: joined (p :: ps) := by
  cases ps <;> rfl

@[simp] theorem joined_pieces (t : Text) : joined (pieces t) = t := by
  induction t with
  | nil => rfl
  | cons c t ih =>
    by_cases h : c = '/'
    · subst h; rw [pieces_slash, joined_cons (pieces_ne_nil t), ih]; rfl
    · rw [pieces_cons h, joined_cons_cons, List.cons_head_tail, ih]

/-- No piece holds a separator. -/
theorem slash_notMem_of_mem_pieces {t p : Text} (h : p ∈ pieces t) : '/' ∉ p := by
  induction t generalizing p with
  | nil => simp_all [pieces]
  | cons c t ih =>
    by_cases hc : c = '/'
    · subst hc
      rcases List.mem_cons.1 (pieces_slash t ▸ h) with rfl | h
      · simp
      · exact ih h
    · rw [pieces_cons hc] at h
      rcases List.mem_cons.1 h with rfl | h
      · simpa [Ne.symm hc] using ih (List.head_mem (pieces_ne_nil t))
      · exact ih (List.mem_of_mem_tail h)

theorem pieces_append_slash {p : Text} (h : '/' ∉ p) (t : Text) :
    pieces (p ++ '/' :: t) = p :: pieces t := by
  induction p with
  | nil => exact pieces_slash t
  | cons c p ih =>
    simp only [List.mem_cons, not_or] at h
    rw [List.cons_append, pieces_cons (Ne.symm h.1)]
    simp [ih h.2]

theorem pieces_of_notMem {p : Text} (h : '/' ∉ p) : pieces p = [p] := by
  induction p with
  | nil => rfl
  | cons c p ih =>
    simp only [List.mem_cons, not_or] at h
    rw [pieces_cons (Ne.symm h.1)]
    simp [ih h.2]

theorem pieces_joined {ps : List Text} (hne : ps ≠ []) (h : ∀ p ∈ ps, '/' ∉ p) :
    pieces (joined ps) = ps := by
  induction ps with
  | nil => exact absurd rfl hne
  | cons p ps ih =>
    cases ps with
    | nil => exact pieces_of_notMem (h p (by simp))
    | cons q ps =>
      rw [joined_cons (by simp), pieces_append_slash (h p (by simp)),
        ih (by simp) fun r hr => h r (List.mem_cons_of_mem _ hr)]

end ScriptLexer.Path
