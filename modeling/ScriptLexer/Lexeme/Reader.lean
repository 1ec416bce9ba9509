import ScriptLexer.Lexeme.Basic

/-!
# Readers

One reader for each sort of lexeme. A reader that has seen the start of its lexeme is committed:
from then on a defect of the text is a fault and not a mismatch.

* `skipLayout` and `readWord` take the longest run of their class.
* `readQuoted` takes everything up to a quote that is not followed by a second one.
* `readComment` takes the rest of the line.
* `readReference` takes the path up to `>`; a character that no path may hold is a fault, and so
  is the end of the text.
* `readSpecial` takes any one character.

Every reader that succeeds leaves a shorter text (`readWord_length` and its companions), and what
it took is how its lexeme is written (`readWord_eq` and its companions).
-/

namespace ScriptLexer

/-- The layout characters at the start, and the text after them. -/
def skipLayout (t : Text) : Text × Text := (t.takeWhile isLayout, t.dropWhile isLayout)

def readWord (t : Text) : Reading Text :=
  if t.takeWhile isWord = [] then .mismatch else .read (t.takeWhile isWord) (t.dropWhile isWord)

/-- The value up to the closing quote, and the text after it. Two quotes in a row stand for one. -/
def quotedBody (q : Char) : Text → Option (Text × Text)
  | [] => none
  | [c] => if c = q then some ([], []) else none
  | c :: d :: rest =>
    if c = q then
      if d = q then (quotedBody q rest).map fun (value, rest) => (q :: value, rest)
      else some ([], d :: rest)
    else (quotedBody q (d :: rest)).map fun (value, rest) => (c :: value, rest)

/-- Reads a text between quotes. -/
def readQuoted : Text → Reading Text
  | [] => .mismatch
  | q :: body =>
    if isQuote q then
      match quotedBody q body with
      | some (value, rest) => .read value rest
      | none => .fault ⟨.unterminatedQuote q, none⟩
    else .mismatch

/-- Reads a line comment, without its `//`. -/
def readComment : Text → Reading Text
  | '/' :: '/' :: body =>
    .read (body.takeWhile fun c => !isLineEnd c) (body.dropWhile fun c => !isLineEnd c)
  | _ => .mismatch

/-- Reads a path between `<` and `>`. The fault of a refused character spans from `<` to that
character. -/
def readReference : Text → Reading Text
  | '<' :: body =>
    match body.dropWhile isPathCharacter with
    | [] => .fault ⟨.unterminatedReference, none⟩
    | c :: rest =>
      if c = '>' then .read (body.takeWhile isPathCharacter) rest
      else
        .fault ⟨.invalidPathCharacter c, some ((body.takeWhile isPathCharacter).length + 2)⟩
  | _ => .mismatch

def readSpecial : Text → Reading Char
  | [] => .mismatch
  | c :: rest => .read c rest

/-! ## What is left is shorter -/

theorem readWord_length {t w rest : Text} (h : readWord t = .read w rest) :
    rest.length < t.length := by
  simp only [readWord] at h
  split at h
  · simp at h
  · next hw =>
    obtain ⟨-, rfl⟩ := Reading.read.inj h
    have := congrArg List.length (List.takeWhile_append_dropWhile (p := isWord) (l := t))
    have := List.length_pos_iff.2 hw
    simp only [List.length_append] at *
    omega

theorem quotedBody_length {q : Char} {t value rest : Text}
    (h : quotedBody q t = some (value, rest)) : rest.length < t.length := by
  fun_induction quotedBody q t generalizing value with
  | case1 => simp at h
  | case2 => simp_all
  | case3 => simp at h
  | case4 rest' ih =>
    simp only [Option.map_eq_some_iff, Prod.mk.injEq] at h
    obtain ⟨⟨v, r⟩, hr, -, rfl⟩ := h
    have := ih hr
    simp only [List.length_cons] at *
    omega
  | case5 d rest' _ =>
    simp only [Option.some.injEq, Prod.mk.injEq] at h
    simp [← h.2]
  | case6 c d rest' _ ih =>
    simp only [Option.map_eq_some_iff, Prod.mk.injEq] at h
    obtain ⟨⟨v, r⟩, hr, -, rfl⟩ := h
    have := ih hr
    simp only [List.length_cons] at *
    omega

theorem readQuoted_length {t value rest : Text} (h : readQuoted t = .read value rest) :
    rest.length < t.length := by
  cases t with
  | nil => simp [readQuoted] at h
  | cons q body =>
    simp only [readQuoted] at h
    split at h
    · split at h
      · next hb =>
        obtain ⟨-, rfl⟩ := Reading.read.inj h
        exact Nat.lt_succ_of_lt (quotedBody_length hb)
      · simp at h
    · simp at h

theorem readComment_length {t body rest : Text} (h : readComment t = .read body rest) :
    rest.length < t.length := by
  unfold readComment at h
  split at h
  · next s =>
    obtain ⟨-, rfl⟩ := Reading.read.inj h
    exact Nat.lt_succ_of_le (Nat.le_succ_of_le (List.dropWhile_sublist _).length_le)
  · simp at h

theorem readReference_length {t path rest : Text} (h : readReference t = .read path rest) :
    rest.length < t.length := by
  unfold readReference at h
  split at h
  · next body =>
    split at h
    · simp at h
    · next c r hd =>
      split at h
      · obtain ⟨-, rfl⟩ := Reading.read.inj h
        have hlength : (body.dropWhile isPathCharacter).length ≤ body.length :=
          (List.dropWhile_sublist _).length_le
        rw [hd] at hlength
        exact Nat.lt_succ_of_lt hlength
      · simp at h
  · simp at h

theorem readSpecial_length {t rest : Text} {c : Char} (h : readSpecial t = .read c rest) :
    rest.length < t.length := by
  cases t with
  | nil => simp [readSpecial] at h
  | cons d t =>
    obtain ⟨-, rfl⟩ := Reading.read.inj h
    exact Nat.lt_succ_self _

/-! ## What is read is how it is written -/

theorem readWord_eq {t w rest : Text} (h : readWord t = .read w rest) :
    t = w ++ rest ∧ (Lexeme.word w).WellFormed := by
  unfold readWord at h
  split at h
  · simp at h
  · next hw =>
    obtain ⟨rfl, rfl⟩ := Reading.read.inj h
    exact ⟨List.takeWhile_append_dropWhile.symm, hw, List.all_eq_true.1 List.all_takeWhile⟩

theorem quotedBody_eq {q : Char} {t value rest : Text} (h : quotedBody q t = some (value, rest)) :
    t = doubled q value ++ q :: rest := by
  fun_induction quotedBody q t generalizing value with
  | case1 => simp at h
  | case2 => simp_all [doubled]
  | case3 => simp at h
  | case4 rest' ih =>
    simp only [Option.map_eq_some_iff, Prod.mk.injEq] at h
    obtain ⟨⟨v, r⟩, hr, rfl, rfl⟩ := h
    simp [doubled, ih hr]
  | case5 d rest' _ =>
    simp only [Option.some.injEq, Prod.mk.injEq] at h
    obtain ⟨rfl, rfl⟩ := h
    rfl
  | case6 c d rest' hc ih =>
    simp only [Option.map_eq_some_iff, Prod.mk.injEq] at h
    obtain ⟨⟨v, r⟩, hr, rfl, rfl⟩ := h
    simp [doubled, hc, ih hr]

theorem readQuoted_eq {q : Char} {t value rest : Text}
    (h : readQuoted (q :: t) = .read value rest) :
    q :: t = (Lexeme.quoted q value).text ++ rest ∧ (Lexeme.quoted q value).WellFormed := by
  simp only [readQuoted] at h
  split at h
  · next hq =>
    split at h
    · next hb =>
      obtain ⟨rfl, rfl⟩ := Reading.read.inj h
      exact ⟨by simp [Lexeme.text, quotedBody_eq hb], hq⟩
    · simp at h
  · simp at h

theorem readComment_eq {t body rest : Text} (h : readComment t = .read body rest) :
    t = (Lexeme.comment body).text ++ rest ∧ (Lexeme.comment body).WellFormed := by
  unfold readComment at h
  split at h
  · obtain ⟨rfl, rfl⟩ := Reading.read.inj h
    refine ⟨by simp [Lexeme.text], fun c hc => ?_⟩
    simpa using List.all_eq_true.1 List.all_takeWhile c hc
  · simp at h

theorem readReference_eq {t path rest : Text} (h : readReference t = .read path rest) :
    t = (Lexeme.reference path).text ++ rest ∧ (Lexeme.reference path).WellFormed := by
  unfold readReference at h
  split at h
  · next body =>
    split at h
    · simp at h
    · next c r hd =>
      split at h
      · next hc =>
        obtain ⟨rfl, rfl⟩ := Reading.read.inj h
        refine ⟨?_, List.all_eq_true.1 List.all_takeWhile⟩
        have := List.takeWhile_append_dropWhile (p := isPathCharacter) (l := body)
        rw [hd, hc] at this
        simp [Lexeme.text, this]
      · simp at h
  · simp at h

end ScriptLexer
