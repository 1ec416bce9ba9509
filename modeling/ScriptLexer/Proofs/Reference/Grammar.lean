import ScriptLexer.Proofs.Lexeme.Defect
import ScriptLexer.Proofs.Tokens.Soundness

/-!
# What a reference looks like

A reference is a `<`, a path and a `>`. Behind the `<` the path goes on for as long as a path may,
and what stands behind it decides how the reference is read.

**The longest path** (`IsLongestPath`). Of all paths that a text starts with, none is longer.
Nothing is said about the reader, and nothing about what is behind the path; but one character of
that is enough to tell, for a path ends where the next character may not stand in one
(`isLongestPath_iff`).

**The answers** (`ReferenceAnswer`). Three things can be behind the longest path: the `>` that
closes the reference, a character that no path may hold, or the end of the text. Each has its own
answer, and the reader gives that one (`IsLongestPath.answer`). So there is always an answer and
never a second one (`ReferenceAnswer.exactlyOne`).

Main result: `readReference_exact`.
-/

namespace ScriptLexer

/-! ## The longest path -/

/-- A text that may stand between `<` and `>`. -/
def IsReferencePath (path : Text) : Prop := ∀ c ∈ path, c ≠ '>' ∧ isRefusedInPath c = false

theorem isReferencePath_iff {path : Text} :
    IsReferencePath path ↔ (Lexeme.reference path).WellFormed := by
  simp only [IsReferencePath, Lexeme.WellFormed, isPathCharacter_iff]

instance (path : Text) : Decidable (IsReferencePath path) :=
  decidable_of_iff (path.all isPathCharacter = true)
    (List.all_eq_true.trans isReferencePath_iff.symm)

/-- Of the paths that `body` starts with, `path` is the longest, and `tail` is behind it. -/
structure IsLongestPath (body path tail : Text) : Prop where
  written : body = path ++ tail
  isPath : IsReferencePath path
  longest : ∀ front, front <+: body → IsReferencePath front → front.length ≤ path.length

/-- **A path is the longest one if the next character may not stand in a path.** -/
theorem isLongestPath_iff {body path tail : Text} :
    IsLongestPath body path tail ↔
      body = path ++ tail ∧ IsReferencePath path ∧ ∀ c ∈ tail.head?, isPathCharacter c = false := by
  constructor
  · intro h
    refine ⟨h.written, h.isPath, fun c hc => ?_⟩
    obtain ⟨rest, rfl⟩ := List.head?_eq_some_iff.1 hc
    cases hchar : isPathCharacter c with
    | false => rfl
    | true =>
      -- With that character the path would be longer.
      have hfront : path ++ [c] <+: body := ⟨rest, by rw [h.written]; simp⟩
      have hpath : IsReferencePath (path ++ [c]) := by
        intro d hd
        rcases List.mem_append.1 hd with hd | hd
        · exact h.isPath d hd
        · obtain rfl := List.mem_singleton.1 hd
          exact isPathCharacter_iff.1 hchar
      have hlength := h.longest _ hfront hpath
      rw [List.length_append, List.length_singleton] at hlength
      omega
  · rintro ⟨hwritten, hpath, hstop⟩
    refine ⟨hwritten, hpath, fun front hfront hfrontPath => ?_⟩
    obtain ⟨rest, hrest⟩ := hfront
    rw [hwritten] at hrest
    rcases List.append_eq_append_iff.1 hrest with ⟨more, rfl, -⟩ | ⟨more, rfl, htail⟩
    · simp
    · -- What a longer path adds starts with the character behind this one.
      cases more with
      | nil => simp
      | cons c more =>
        have hchar : isPathCharacter c = true := isPathCharacter_iff.2 (hfrontPath c (by simp))
        rw [hstop c (by rw [htail]; rfl)] at hchar
        cases hchar

theorem exists_isLongestPath (body : Text) : ∃ path tail, IsLongestPath body path tail := by
  refine ⟨body.takeWhile isPathCharacter, body.dropWhile isPathCharacter,
    isLongestPath_iff.2 ⟨List.takeWhile_append_dropWhile.symm, fun c hc => ?_,
      head?_dropWhile isPathCharacter body⟩⟩
  exact isPathCharacter_iff.1 (List.mem_takeWhile_imp hc)

/-! ## The answers -/

/-- How a reference with `path` is read, by the text behind the path. -/
inductive ReferenceAnswer (path : Text) : Text → Reading Text → Prop
  /-- A `>` closes the reference. -/
  | closed (rest : Text) : ReferenceAnswer path ('>' :: rest) (.read path rest)
  /-- The path runs into a character that it may not hold. The fault spans from `<` to there. -/
  | refused {c : Char} (rest : Text) : isRefusedInPath c = true →
      ReferenceAnswer path (c :: rest) (.fault ⟨.invalidPathCharacter c, some (path.length + 2)⟩)
  /-- The text ends first. -/
  | unterminated : ReferenceAnswer path [] (.fault ⟨.unterminatedReference, none⟩)

/-- **The reader answers by what is behind the longest path.** -/
theorem IsLongestPath.answer {body path tail : Text} (h : IsLongestPath body path tail) :
    ReferenceAnswer path tail (readReference ('<' :: body)) := by
  obtain ⟨rfl, hpath, hstop⟩ := isLongestPath_iff.1 h
  have hw := isReferencePath_iff.1 hpath
  cases tail with
  | nil =>
    rw [List.append_nil, readReference_eq_fault_iff.2 (.openReference hw)]
    exact .unterminated
  | cons c rest =>
    by_cases hc : c = '>'
    · subst hc
      rw [readReference_append hw]
      exact .closed rest
    · have hrefused := isRefusedInPath_of_not_isPathCharacter (hstop c rfl) hc
      rw [readReference_eq_fault_iff.2 (.refusedCharacter hw hrefused)]
      exact .refused rest hrefused

namespace ReferenceAnswer

variable {path tail : Text} {r : Reading Text}

theorem eq_read_iff (h : ReferenceAnswer path tail r) {value rest : Text} :
    r = .read value rest ↔ value = path ∧ tail = '>' :: rest := by
  cases h with
  | closed rest => simp [eq_comm]
  | refused rest hc => simp [ne_close_of_isRefusedInPath hc]
  | unterminated => simp

theorem eq_invalid_iff (h : ReferenceAnswer path tail r) {c : Char} {n : Option Nat} :
    r = .fault ⟨.invalidPathCharacter c, n⟩ ↔
      n = some (path.length + 2) ∧ isRefusedInPath c = true ∧ tail.head? = some c := by
  constructor
  · rintro rfl
    cases h with
    | refused rest hc => exact ⟨rfl, hc, rfl⟩
  · rintro ⟨rfl, hc, hhead⟩
    cases h with
    | closed rest =>
      obtain rfl := Option.some.inj hhead
      exact absurd rfl (ne_close_of_isRefusedInPath hc)
    | refused rest _ =>
      obtain rfl := Option.some.inj hhead
      rfl
    | unterminated => cases hhead

theorem eq_unterminated_iff (h : ReferenceAnswer path tail r) {n : Option Nat} :
    r = .fault ⟨.unterminatedReference, n⟩ ↔ n = none ∧ tail = [] := by
  cases h with
  | closed rest => simp
  | refused rest hc => simp
  | unterminated => simp [eq_comm]

theorem ne_mismatch (h : ReferenceAnswer path tail r) : r ≠ .mismatch := by
  cases h <;> exact nofun

/-- **There is one answer**, and the others are not given. -/
theorem exactlyOne (h : ReferenceAnswer path tail r) :
    ExactlyOne (∃ rest, r = .read path rest)
      (∃ c, r = .fault ⟨.invalidPathCharacter c, some (path.length + 2)⟩)
      (r = .fault ⟨.unterminatedReference, none⟩) := by
  cases h with
  | closed rest => exact .inl ⟨⟨rest, rfl⟩, nofun, nofun⟩
  | @refused c rest hc => exact .inr (.inl ⟨nofun, ⟨c, rfl⟩, nofun⟩)
  | unterminated => exact .inr (.inr ⟨nofun, nofun, rfl⟩)

end ReferenceAnswer

theorem readReference_eq_mismatch_iff {t : Text} :
    readReference t = .mismatch ↔ t.head? ≠ some '<' := by
  cases t with
  | nil => simp [readReference]
  | cons c body =>
    by_cases hc : c = '<'
    · subst hc
      obtain ⟨path, tail, h⟩ := exists_isLongestPath body
      simp [h.answer.ne_mismatch]
    · simp [readReference, hc]

/-- **A reference is read by what is behind its longest path**, where a path holds neither `>` nor a
control character up to U+001F, `"`, `<` or `|`. A `>` closes it, and the path is its value. One of
the other characters is a fault, with the number of characters from `<` through the one at fault. At
the end of the text the reference is unterminated. Exactly one of these happens behind a `<`, and
without it the text is refused. Whatever the path, writing it between `<` and `>` and reading it
gives it back. -/
theorem readReference_exact :
    (∀ c, isRefusedInPath c = true ↔ c.toNat ≤ 0x1F ∨ c = '"' ∨ c = '<' ∨ c = '|') ∧
    (∀ body, ∃ path tail, IsLongestPath body path tail) ∧
    (∀ body path tail, IsLongestPath body path tail →
      (∀ value rest, readReference ('<' :: body) = .read value rest ↔
        value = path ∧ tail = '>' :: rest) ∧
      (∀ c n, readReference ('<' :: body) = .fault ⟨.invalidPathCharacter c, n⟩ ↔
        n = some (path.length + 2) ∧ isRefusedInPath c = true ∧ tail.head? = some c) ∧
      (∀ n, readReference ('<' :: body) = .fault ⟨.unterminatedReference, n⟩ ↔
        n = none ∧ tail = []) ∧
      ExactlyOne (∃ rest, readReference ('<' :: body) = .read path rest)
        (∃ c, readReference ('<' :: body) =
          .fault ⟨.invalidPathCharacter c, some (path.length + 2)⟩)
        (readReference ('<' :: body) = .fault ⟨.unterminatedReference, none⟩)) ∧
    (∀ t, readReference t = .mismatch ↔ t.head? ≠ some '<') ∧
    (∀ path rest, IsReferencePath path →
      readReference ('<' :: (path ++ '>' :: rest)) = .read path rest) := by
  refine ⟨fun _ => isRefusedInPath_iff, exists_isLongestPath, ?_,
    fun _ => readReference_eq_mismatch_iff, ?_⟩
  · intro body path tail h
    exact ⟨fun _ _ => h.answer.eq_read_iff, fun _ _ => h.answer.eq_invalid_iff,
      fun _ => h.answer.eq_unterminated_iff, h.answer.exactlyOne⟩
  · intro path rest hpath
    exact readReference_append (isReferencePath_iff.1 hpath) rest

/-- Characters are counted, whatever it takes to store them: in `<éž|>` the bar is the fourth. The
path goes on behind a backslash or a `/`, and a second `>` is no longer part of the reference. -/
theorem readReference_exact_accented :
    IsLongestPath ['é', 'ž', '|', '>'] ['é', 'ž'] ['|', '>'] ∧
      readReference ['<', 'é', 'ž', '|', '>'] = .fault ⟨.invalidPathCharacter '|', some 4⟩ ∧
      IsReferencePath ['é', '\\', 'ž', '/'] ∧
      readReference ['<', 'é', '\\', 'ž', '/', '>', '>'] =
        .read ['é', '\\', 'ž', '/'] ['>'] := by
  have hlongest : IsLongestPath ['é', 'ž', '|', '>'] ['é', 'ž'] ['|', '>'] := by
    refine isLongestPath_iff.2 ⟨rfl, by decide, fun c hc => ?_⟩
    obtain rfl := Option.some.inj hc
    rfl
  have hpath : IsReferencePath ['é', '\\', 'ž', '/'] := by decide
  obtain ⟨-, -, hread, -, hwritten⟩ := readReference_exact
  obtain ⟨-, hinvalid, -, -⟩ := hread _ _ _ hlongest
  exact ⟨hlongest, (hinvalid '|' (some 4)).2 ⟨rfl, by decide, rfl⟩, hpath,
    hwritten _ ['>'] hpath⟩

end ScriptLexer
