import ScriptLexer.Proofs.Tokens.Span

/-!
# Round by round

The tokens of a script can be made in rounds. A round skips layout, decides what starts at the next
character, reads that and gives it its meaning (`Resolver.scan`), and goes on behind it. `Progress`
is what it goes on with: the characters that were read, the text in front, and the tokens so far.

**The rounds are the tokenizer** (`Resolver.resume_eq`): one round and the rest of the script are
the whole from there, with all accesses to files. So the rounds lead where `Resolver.tokenizeScript`
does.

**The reader in charge accepts** (`Resolver.scan_cases`). What was decided to start at a character
can be read there, or is a fault; it is never refused. The case of a round that takes a single
character after a refusal is not reached.

**Every round makes progress** (`Resolver.of_round_eq_goesOn`): the text in front loses at least one
character, and at most one token is added. What a round preserves holds after any number of them
(`Resolver.Rounds.follows`), and no more rounds fit than there are characters
(`Resolver.exists_rounds`).

Main result: `rounds_progress`.
-/

namespace ScriptLexer

instance : LawfulMonad Traced :=
  LawfulMonad.mk' Traced
    (fun x => congrArg (Traced.mk x.value) (List.append_nil x.accesses))
    (fun _ _ => rfl)
    (fun x _ _ => congrArg (Traced.mk _) (List.append_assoc x.accesses _ _))

/-! ## Rounds -/

/-- How far a script was read. -/
structure Progress where
  /-- The number of characters that were read. -/
  offset : Nat
  /-- The text in front. -/
  remaining : Text
  /-- The tokens so far. -/
  tokens : List Token
  deriving DecidableEq, Repr

def Progress.start (s : Script) : Progress := ⟨0, s.text, []⟩

/-- What a round leads to. -/
inductive Round where
  | goesOn (p : Progress)
  | ends (o : Outcome)
  deriving DecidableEq, Repr

namespace Resolver

/-- Reads what starts a text, and gives it its meaning. A reference that stands for nothing is a
fault like those of the text. -/
def scan (r : Resolver) (folder : Path) (start : Start) (t : Text) :
    Traced (Reading (Option (TokenKind × Text))) :=
  match start.read t with
  | .mismatch => pure .mismatch
  | .fault f => pure (.fault f)
  | .read l rest => do
    match ← r.meaning folder l with
    | .error kind => pure (.fault ⟨kind, none⟩)
    | .ok m => pure (.read m rest)

end Resolver

/-- What a reading of the text `t` in front, at offset `n`, leads to. Where nothing can be read, a
single character is taken for a special one. -/
def Progress.after (p : Progress) (s : Script) (n : Nat) (t : Text) :
    Reading (Option (TokenKind × Text)) → Round
  | .read m rest =>
    let stop := n + (t.length - rest.length)
    .goesOn ⟨stop, rest, p.tokens ++ (m.map fun m => ⟨m.1, m.2, s, n, stop⟩).toList⟩
  | .fault f => .ends ⟨p.tokens, some ⟨f.kind, s, n, f.length⟩⟩
  | .mismatch => .goesOn ⟨n + 1, t.tail, p.tokens ++ [⟨.special, t.take 1, s, n, n + 1⟩]⟩

theorem Progress.after_read (p : Progress) (s : Script) (n : Nat) (l : Lexeme) (rest : Text)
    (m : Option (TokenKind × Text)) :
    p.after s n (l.text ++ rest) (.read m rest) =
      .goesOn ⟨n + l.length, rest,
        p.tokens ++ (m.map fun m => ⟨m.1, m.2, s, n, n + l.length⟩).toList⟩ := by
  have hlen : (l.text ++ rest).length - rest.length = l.length := by
    rw [List.length_append, Nat.add_sub_cancel]
    rfl
  rw [after, hlen]

namespace Resolver

def round (r : Resolver) (s : Script) (p : Progress) : Traced Round :=
  let n := p.offset + (skipLayout p.remaining).1.length
  let t := (skipLayout p.remaining).2
  match Start.of? t with
  | none => pure (.ends ⟨p.tokens ++ [Token.endOfFile s], none⟩)
  | some start => p.after s n t <$> r.scan s.folder start t

/-- So many rounds lead from one progress to another, with these accesses to files. -/
inductive Rounds (r : Resolver) (s : Script) : Nat → Progress → Progress → List Access → Prop
  | refl (p : Progress) : Rounds r s 0 p p []
  | step {n : Nat} {p q p' : Progress} {accesses : List Access} :
      (r.round s p).value = .goesOn q → Rounds r s n q p' accesses →
      Rounds r s (n + 1) p p' ((r.round s p).accesses ++ accesses)

/-- The outcome for a script that was read so far. -/
def resume (r : Resolver) (s : Script) (p : Progress) : Traced Outcome :=
  (fun o => o.prepend p.tokens) <$> r.tokensFrom s p.offset p.remaining

/-- The outcome for the script that a round leads to. -/
def conclude (r : Resolver) (s : Script) : Round → Traced Outcome
  | .goesOn q => r.resume s q
  | .ends o => pure o

variable {r : Resolver} {s : Script} {folder : Path}

/-! ## The reader in charge accepts -/

theorem stops_of_meaning {l : Lexeme} {rest : Text} {kind : ErrorKind} (hw : l.WellFormed)
    (h : (r.meaning folder l).value = .error kind) :
    r.Stops folder (l.text ++ rest) kind none := by
  rcases r.finds_or_error folder l with hl | ⟨path, kind', rfl, hkind⟩
  · rw [value_meaning hl] at h
    cases h
  · have hmeaning : (r.meaning folder (.reference path)).value = .error kind' := by
      simp [meaning, hkind]
    obtain rfl := Except.error.inj (hmeaning.symm.trans h)
    exact .unresolved hw hkind

theorem scan_cases (r : Resolver) (folder : Path) {c : Char} (hc : isLayout c = false) (t : Text) :
    (∃ (l : Lexeme) (rest : Text) (m : _), c :: t = l.text ++ rest ∧ l.WellFormed ∧
      (r.scan folder (Start.of c t) (c :: t)).value = .read m rest) ∨
    ∃ f, r.Stops folder (c :: t) f.kind f.length ∧
      (r.scan folder (Start.of c t) (c :: t)).value = .fault f := by
  cases hread : (Start.of c t).read (c :: t) with
  | mismatch => exact absurd hread (Start.read_of_ne_mismatch c t)
  | fault f =>
    right
    refine ⟨f, .fault hc hread, ?_⟩
    rw [scan, hread]
    rfl
  | read l rest =>
    obtain ⟨htext, hw⟩ := Start.read_of_eq hc hread
    cases hm : (r.meaning folder l).value with
    | ok m =>
      left
      refine ⟨l, rest, m, htext, hw, ?_⟩
      simp [scan, hread, hm]
    | error kind =>
      right
      refine ⟨⟨kind, none⟩, htext ▸ stops_of_meaning hw hm, ?_⟩
      simp [scan, hread, hm]

/-- **What starts behind layout is never refused.** -/
theorem scan_skipLayout_ne_mismatch (r : Resolver) (folder : Path) {t : Text} {start : Start}
    (h : Start.of? (skipLayout t).2 = some start) :
    (r.scan folder start (skipLayout t).2).value ≠ .mismatch := by
  have hhead := head?_dropWhile isLayout t
  rw [skipLayout] at h ⊢
  cases ht : t.dropWhile isLayout with
  | nil =>
    rw [ht] at h
    cases h
  | cons c t =>
    rw [ht] at h hhead
    obtain rfl := Option.some.inj h
    rcases r.scan_cases folder (hhead c rfl) t with
      ⟨_, _, _, -, -, hscan⟩ | ⟨_, -, hscan⟩
    · simp [hscan]
    · simp [hscan]

/-! ## The rounds are the tokenizer -/

/-- **One round, and the rest of the script behind it.** -/
theorem resume_eq (r : Resolver) (s : Script) (p : Progress) :
    r.resume s p = r.round s p >>= r.conclude s := by
  rw [resume, tokensFrom_dropWhile, round, skipLayout]
  generalize p.offset + (p.remaining.takeWhile isLayout).length = n
  cases ht : p.remaining.dropWhile isLayout with
  | nil =>
    rw [tokensFrom_nil]
    rfl
  | cons c t =>
    have hc : isLayout c = false := by
      apply head?_dropWhile isLayout p.remaining
      rw [ht]
      rfl
    simp only [Start.of?, scan]
    cases hread : (Start.of c t).read (c :: t) with
    | mismatch => exact absurd hread (Start.read_of_ne_mismatch c t)
    | fault f =>
      rw [tokensFrom, lex_fault hc hread]
      simp [tokensOf, Progress.after, conclude, Outcome.prepend, Outcome.failed]
    | read l rest =>
      obtain ⟨htext, hw⟩ := Start.read_of_eq hc hread
      rw [htext, tokensFrom_append hw (Start.endsBefore_of_read hread)]
      simp only [map_bind, bind_map_left, bind_assoc]
      congr 1
      funext m
      cases m with
      | error kind => simp [Progress.after, conclude, Outcome.prepend, Outcome.failed]
      | ok m =>
        cases m with
        | none => simp [Progress.after_read, conclude, resume]
        | some m => simp [Progress.after_read, conclude, resume, Outcome.prepend, Outcome.cons]

theorem resume_start (r : Resolver) (s : Script) :
    r.resume s (Progress.start s) = r.tokenizeScript s := by
  have hprepend : (fun o : Outcome => o.prepend (Progress.start s).tokens) = id := rfl
  rw [resume, hprepend, id_map]
  rfl

/-! ## What a round does -/

section Round

variable {p q : Progress}

theorem value_round_of_nil (h : p.remaining.dropWhile isLayout = []) :
    (r.round s p).value = .ends ⟨p.tokens ++ [Token.endOfFile s], none⟩ := by
  simp [round, skipLayout, h, Start.of?]

theorem value_round_of_cons {c : Char} {t : Text} (h : p.remaining.dropWhile isLayout = c :: t) :
    (r.round s p).value =
      p.after s (p.offset + (p.remaining.takeWhile isLayout).length) (c :: t)
        (r.scan s.folder (Start.of c t) (c :: t)).value := by
  simp [round, skipLayout, h, Start.of?]

/-- **A round that goes on** has read at least one character and found at most one token. -/
theorem of_round_eq_goesOn (h : (r.round s p).value = .goesOn q) :
    ∃ front ts, front ≠ [] ∧ p.remaining = front ++ q.remaining ∧
      q.offset = p.offset + front.length ∧ ts.length ≤ 1 ∧ q.tokens = p.tokens ++ ts := by
  have htake : p.remaining = p.remaining.takeWhile isLayout ++ p.remaining.dropWhile isLayout :=
    List.takeWhile_append_dropWhile.symm
  cases ht : p.remaining.dropWhile isLayout with
  | nil =>
    rw [value_round_of_nil ht] at h
    cases h
  | cons c t =>
    have hc : isLayout c = false := head?_dropWhile isLayout p.remaining c (by rw [ht]; rfl)
    rw [value_round_of_cons ht] at h
    rcases r.scan_cases s.folder hc t with
      ⟨l, rest, m, htext, hw, hscan⟩ | ⟨f, -, hscan⟩
    · rw [hscan, htext, Progress.after_read] at h
      obtain rfl := Round.goesOn.inj h
      refine ⟨p.remaining.takeWhile isLayout ++ l.text, _, ?_, ?_, ?_, ?_, rfl⟩
      · exact List.append_ne_nil_of_right_ne_nil _ (Lexeme.text_ne_nil hw)
      · rw [List.append_assoc, ← htext, ← ht, ← htake]
      · rw [List.length_append, ← Nat.add_assoc]
        rfl
      · cases m <;> simp
    · rw [hscan] at h
      cases h

theorem of_round_eq_ends {o : Outcome} (h : (r.round s p).value = .ends o) :
    o.tokens = p.tokens ∨ o.tokens = p.tokens ++ [Token.endOfFile s] := by
  cases ht : p.remaining.dropWhile isLayout with
  | nil =>
    rw [value_round_of_nil ht] at h
    obtain rfl := Round.ends.inj h
    exact .inr rfl
  | cons c t =>
    rw [value_round_of_cons ht] at h
    cases hscan : (r.scan s.folder (Start.of c t) (c :: t)).value with
    | fault f =>
      rw [hscan] at h
      obtain rfl := Round.ends.inj h
      exact .inl rfl
    | read m rest =>
      rw [hscan] at h
      cases h
    | mismatch =>
      rw [hscan] at h
      cases h

theorem length_lt_of_round_eq_goesOn (h : (r.round s p).value = .goesOn q) :
    q.remaining.length < p.remaining.length := by
  obtain ⟨front, -, hfront, hremaining, -⟩ := of_round_eq_goesOn h
  have hpos := List.length_pos_iff.2 hfront
  rw [hremaining, List.length_append]
  omega

end Round

end Resolver

/-! ## What rounds preserve -/

/-- What holds of the progress after `n` rounds: the text in front is what was not read, and the
rounds count at least the tokens and at most the characters that were read. -/
structure Progress.Follows (p : Progress) (s : Script) (n : Nat) : Prop where
  offset_le : p.offset ≤ s.length
  remaining : p.remaining = s.text.drop p.offset
  rounds_le : n ≤ p.offset
  tokens_le : p.tokens.length ≤ n

theorem Progress.follows_start (s : Script) : (start s).Follows s 0 :=
  ⟨Nat.zero_le _, rfl, Nat.le_refl 0, Nat.le_refl 0⟩

namespace Resolver

variable {r : Resolver} {s : Script} {p q : Progress} {m n : Nat} {accesses : List Access}

/-- **One round.** -/
theorem follows_of_round (hp : p.Follows s n) (h : (r.round s p).value = .goesOn q) :
    q.Follows s (n + 1) := by
  obtain ⟨front, ts, hfront, hremaining, hoffset, hts, htokens⟩ := of_round_eq_goesOn h
  have hpos := List.length_pos_iff.2 hfront
  have hlen := congrArg List.length (hp.remaining.symm.trans hremaining)
  have hle : p.offset ≤ s.text.length := hp.offset_le
  have hrounds := hp.rounds_le
  have hcount := hp.tokens_le
  rw [List.length_drop, List.length_append] at hlen
  refine ⟨?_, ?_, by omega, ?_⟩
  · show q.offset ≤ s.text.length
    omega
  · rw [hoffset, ← List.drop_drop, ← hp.remaining, hremaining, List.drop_left]
  · rw [htokens, List.length_append]
    omega

/-- **Any number of rounds.** -/
theorem Rounds.follows (h : r.Rounds s n p q accesses) (hp : p.Follows s m) :
    q.Follows s (m + n) := by
  induction h generalizing m with
  | refl p => exact hp
  | @step n p q p' accesses hround _ ih =>
    rw [Nat.add_comm n, ← Nat.add_assoc]
    exact ih (follows_of_round hp hround)

/-- **The rounds end**, with the outcome for the script. -/
theorem exists_rounds (r : Resolver) (s : Script) (p : Progress) :
    ∃ n q accesses, r.Rounds s n p q accesses ∧ (r.round s q).value = .ends (r.resume s p).value ∧
      accesses ++ (r.round s q).accesses = (r.resume s p).accesses := by
  induction hlen : p.remaining.length using Nat.strongRecOn generalizing p with
  | ind k ih =>
    have hresume := r.resume_eq s p
    cases hround : (r.round s p).value with
    | ends o =>
      refine ⟨0, p, [], .refl p, ?_, ?_⟩
      · simp [hresume, hround, conclude]
      · simp [hresume, hround, conclude]
    | goesOn q =>
      have hlt := length_lt_of_round_eq_goesOn hround
      obtain ⟨n, p', accesses, hrounds, hends, haccesses⟩ := ih _ (hlen ▸ hlt) q rfl
      refine ⟨n + 1, p', _, .step hround hrounds, ?_, ?_⟩
      · simp [hresume, hround, conclude, hends]
      · simp [hresume, hround, conclude, haccesses]

end Resolver

/-- **What was decided to start is accepted, and every round makes progress.** For every script, all
files and every dialect: a text that does not start with layout has something that starts it, and
that is read with at least one character, or is a fault; it is not refused. After any number of
rounds the text in front is the script without the characters that were read; in the next round
nothing is refused, and the text becomes shorter. So the rounds end, after no more of them than
there are characters, with what the tokenizer gives; and there are no more tokens than characters,
the end of the script aside. -/
theorem rounds_progress (r : Resolver) (s : Script) :
    (∀ c t, isLayout c = false → ∃ start, Start.of? (c :: t) = some start ∧
      ((∃ m front rest, (r.scan s.folder start (c :: t)).value = .read m rest ∧ front ≠ [] ∧
          c :: t = front ++ rest) ∨
        ∃ f, (r.scan s.folder start (c :: t)).value = .fault f)) ∧
    (∀ n p accesses, r.Rounds s n (Progress.start s) p accesses →
      p.offset ≤ s.length ∧ p.remaining = s.text.drop p.offset ∧
        (∀ start, Start.of? (skipLayout p.remaining).2 = some start →
          (r.scan s.folder start (skipLayout p.remaining).2).value ≠ .mismatch) ∧
        ∀ q, (r.round s p).value = .goesOn q → q.remaining.length < p.remaining.length) ∧
    (∃ n p accesses, n ≤ s.length ∧ r.Rounds s n (Progress.start s) p accesses ∧
      (r.round s p).value = .ends (r.tokenizeScript s).value ∧
      accesses ++ (r.round s p).accesses = (r.tokenizeScript s).accesses) ∧
    (r.tokenizeScript s).value.lexical.length ≤ s.length := by
  have hstart := Progress.follows_start s
  obtain ⟨n, p, accesses, hrounds, hends, haccesses⟩ := r.exists_rounds s (Progress.start s)
  rw [Resolver.resume_start] at hends haccesses
  have hp := hrounds.follows hstart
  have hn : n ≤ s.length := by
    have hle := Nat.le_trans hp.rounds_le hp.offset_le
    omega
  refine ⟨?_, ?_, ⟨n, p, accesses, hn, hrounds, hends, haccesses⟩, ?_⟩
  · intro c t hc
    refine ⟨Start.of c t, rfl, ?_⟩
    rcases r.scan_cases s.folder hc t with
      ⟨l, rest, m, htext, hw, hscan⟩ | ⟨f, -, hscan⟩
    · exact .inl ⟨m, l.text, rest, hscan, Lexeme.text_ne_nil hw, htext⟩
    · exact .inr ⟨f, hscan⟩
  · intro k q _ hrounds
    have hq := hrounds.follows hstart
    exact ⟨hq.offset_le, hq.remaining, fun _ => r.scan_skipLayout_ne_mismatch s.folder,
      fun _ hround => Resolver.length_lt_of_round_eq_goesOn hround⟩
  · have hcount := hp.tokens_le
    have hlexical : (r.tokenizeScript s).value.lexical.length ≤ p.tokens.length := by
      rcases Resolver.of_round_eq_ends hends with htokens | htokens
      · rw [Outcome.lexical, htokens]
        exact List.length_filter_le _ _
      · rw [Outcome.lexical, htokens, List.filter_append, List.length_append]
        exact List.length_filter_le _ _
    omega

end ScriptLexer
