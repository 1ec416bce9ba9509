import Mathlib.Data.List.TakeWhile
import ScriptLexer.Proofs.Lexeme.Cut
import ScriptLexer.Tokenizer

/-!
# Runs over a text

`Resolver.tokensFrom r s n t` tokenizes `t` as the part of the script `s` that starts at offset `n`.
A run over lexemes that form a cut, and whose references are all found, emits the tokens of these
lexemes and goes on behind them (`Reaches.value_tokensFrom`). Every text is such a cut up to its end,
or up to a place where tokenizing stops (`exists_reaches`).

The tokens of lexemes in a row are `tokensAt`: layout and comments have none, and every other lexeme
has one that spans its characters. What a reference means is given by `content`, a text for each
path as it stands between `<` and `>`.
-/

namespace ScriptLexer

/-! ## Tokens of lexemes -/

namespace Lexeme

/-- The kind and value of a lexeme when references stand for the given texts. -/
def meaning (content : Text → Text) : Lexeme → Option (TokenKind × Text)
  | blank _ | comment _ => none
  | word run => some (.text, run)
  | quoted _ value => some (.text, value)
  | reference path => some (.text, content path)
  | special c => some (.special, [c])

/-- The token of a lexeme that starts at offset `n` of `s`. -/
def token? (content : Text → Text) (s : Script) (n : Nat) (l : Lexeme) : Option Token :=
  (l.meaning content).map fun m => ⟨m.1, m.2, s, n, n + l.length⟩

theorem token?_eq_some {content : Text → Text} {s : Script} {n : Nat} {l : Lexeme} {a : Token} :
    l.token? content s n = some a ↔
      ∃ kind value, l.meaning content = some (kind, value) ∧
        ⟨kind, value, s, n, n + l.length⟩ = a := by
  simp only [token?, Option.map_eq_some_iff, Prod.exists]

end Lexeme

/-- The tokens of lexemes in a row, the first of which starts at offset `n` of `s`. -/
def tokensAt (content : Text → Text) (s : Script) : Nat → List Lexeme → List Token
  | _, [] => []
  | n, l :: ls => (l.token? content s n).toList ++ tokensAt content s (n + l.length) ls

section tokensAt

variable {content : Text → Text} {s : Script}

theorem tokensAt_append (n : Nat) (ls ls' : List Lexeme) :
    tokensAt content s n (ls ++ ls') =
      tokensAt content s n ls ++ tokensAt content s (n + (written ls).length) ls' := by
  induction ls generalizing n with
  | nil => rfl
  | cons l ls ih =>
    rw [List.cons_append, tokensAt, tokensAt, ih, length_written_cons, List.append_assoc,
      Nat.add_assoc]

theorem mem_tokensAt {n : Nat} {ls : List Lexeme} {a : Token} :
    a ∈ tokensAt content s n ls ↔
      ∃ ls₁ l ls₂ kind value, ls = ls₁ ++ l :: ls₂ ∧ l.meaning content = some (kind, value) ∧
        ⟨kind, value, s, n + (written ls₁).length, n + (written ls₁).length + l.length⟩ = a := by
  constructor
  · intro h
    induction ls generalizing n with
    | nil => cases h
    | cons l ls ih =>
      rcases List.mem_append.1 h with h | h
      · obtain ⟨kind, value, hm, ha⟩ := Lexeme.token?_eq_some.1 (Option.mem_toList.1 h)
        exact ⟨[], l, ls, kind, value, rfl, hm, ha⟩
      · obtain ⟨ls₁, l', ls₂, kind, value, rfl, hm, ha⟩ := ih h
        refine ⟨l :: ls₁, l', ls₂, kind, value, rfl, hm, ?_⟩
        rw [← ha, length_written_cons, ← Nat.add_assoc]
  · rintro ⟨ls₁, l, ls₂, kind, value, rfl, hm, ha⟩
    rw [tokensAt_append, tokensAt, Lexeme.token?_eq_some.2 ⟨kind, value, hm, ha⟩]
    simp

end tokensAt

/-! ## What references stand for -/

namespace Resolver

/-- The text that a reference in a script of `folder` stands for; empty when there is none. -/
def content (r : Resolver) (folder : Path) (path : Text) : Text :=
  match (r.resolve (referencePath folder path)).value with
  | .ok text => text
  | .error _ => []

/-- The reference, if the lexeme is one, stands for the text that `content` gives. -/
def Finds (r : Resolver) (folder : Path) (content : Text → Text) (l : Lexeme) : Prop :=
  ∀ path, l = .reference path →
    (r.resolve (referencePath folder path)).value = .ok (content path)

theorem value_meaning {r : Resolver} {folder : Path} {content : Text → Text} {l : Lexeme}
    (h : r.Finds folder content l) :
    (r.meaning folder l).value = .ok (l.meaning content) := by
  cases l with
  | reference path => simp [meaning, Lexeme.meaning, h path rfl]
  | _ => rfl

theorem finds_or_error (r : Resolver) (folder : Path) (l : Lexeme) :
    r.Finds folder (r.content folder) l ∨
      ∃ path kind, l = .reference path ∧
        (r.resolve (referencePath folder path)).value = .error kind := by
  cases l with
  | reference path =>
    cases h : (r.resolve (referencePath folder path)).value with
    | error kind => exact .inr ⟨path, kind, rfl, h⟩
    | ok text =>
      left
      intro p hp
      obtain rfl := Lexeme.reference.inj hp
      rw [content, h]
  | _ => exact .inl fun p hp => Lexeme.noConfusion hp

end Resolver

/-! ## Tokenizing from an offset on -/

def Outcome.prepend (o : Outcome) (ts : List Token) : Outcome := ⟨ts ++ o.tokens, o.error⟩

theorem Outcome.prepend_prepend (o : Outcome) (ts ts' : List Token) :
    (o.prepend ts').prepend ts = o.prepend (ts ++ ts') := by
  simp only [prepend, List.append_assoc]

namespace Resolver

variable {r : Resolver} {s : Script} {n : Nat}

/-- The tokens of a text that is the part of `s` from offset `n` on. -/
def tokensFrom (r : Resolver) (s : Script) (n : Nat) (t : Text) : Traced Outcome :=
  r.tokensOf s (lex t).fault n (lex t).lexemes

theorem value_tokenize_singleton (r : Resolver) (s : Script) :
    (r.tokenize [s]).value = (r.tokensFrom s 0 s.text).value := by
  have h : (r.tokenizeScript s).value = (r.tokensFrom s 0 s.text).value := rfl
  rw [← h, tokenize, Traced.value_bind]
  generalize (r.tokenizeScript s).value = o
  obtain ⟨tokens, error⟩ := o
  cases error with
  | none => simp [Outcome.isOk, tokenize, Outcome.append]
  | some e => rfl

@[simp] theorem tokensFrom_nil : r.tokensFrom s n [] = pure ⟨[Token.endOfFile s], none⟩ := by
  rw [tokensFrom, lex_nil]
  rfl

theorem tokensFrom_dropWhile (t : Text) :
    r.tokensFrom s n t =
      r.tokensFrom s (n + (t.takeWhile isLayout).length) (t.dropWhile isLayout) := by
  cases t with
  | nil => rfl
  | cons c t =>
    cases hc : isLayout c with
    | false => simp [hc]
    | true =>
      rw [List.takeWhile_cons_of_pos hc, List.dropWhile_cons_of_pos hc, tokensFrom, lex_layout hc]
      rfl

theorem tokensFrom_layout_append {run : Text} (hrun : ∀ c ∈ run, isLayout c = true) (t : Text) :
    r.tokensFrom s n (run ++ t) = r.tokensFrom s (n + run.length) t := by
  have hlen : n + (run ++ t.takeWhile isLayout).length =
      n + run.length + (t.takeWhile isLayout).length := by
    rw [List.length_append, Nat.add_assoc]
  rw [tokensFrom_dropWhile (run ++ t), List.takeWhile_append_of_pos hrun,
    List.dropWhile_append_of_pos hrun, hlen, ← tokensFrom_dropWhile t]

/-- **One step.** A lexeme that ends before a text is given its meaning; then the text is next. -/
theorem tokensFrom_append {l : Lexeme} {t : Text} (hw : l.WellFormed) (he : l.EndsBefore t) :
    r.tokensFrom s n (l.text ++ t) = (do
      match ← r.meaning s.folder l with
      | .error kind => pure (.failed ⟨kind, s, n, none⟩)
      | .ok none => r.tokensFrom s (n + l.length) t
      | .ok (some (kind, value)) =>
        Outcome.cons ⟨kind, value, s, n, n + l.length⟩ <$> r.tokensFrom s (n + l.length) t) := by
  by_cases hb : ∃ run, l = .blank run
  · obtain ⟨run, rfl⟩ := hb
    exact tokensFrom_layout_append hw.2 t
  · rw [tokensFrom, lex_append hw he fun run h => hb ⟨run, h⟩]
    rfl

theorem value_tokensFrom_append {l : Lexeme} {t : Text} {content : Text → Text}
    (hw : l.WellFormed) (he : l.EndsBefore t) (hf : r.Finds s.folder content l) :
    (r.tokensFrom s n (l.text ++ t)).value =
      (r.tokensFrom s (n + l.length) t).value.prepend (l.token? content s n).toList := by
  rw [tokensFrom_append hw he, Traced.value_bind, value_meaning hf, Lexeme.token?]
  cases l.meaning content with
  | none => rfl
  | some m => rfl

/-! ## Runs -/

/-- What stops tokenizing at the start of a text: a defect of the text, or a reference that stands
for nothing. -/
inductive Stops (r : Resolver) (folder : Path) : Text → ErrorKind → Option Nat → Prop
  | fault {c : Char} {t : Text} {f : Fault} : isLayout c = false →
      (Start.of c t).read (c :: t) = .fault f → Stops r folder (c :: t) f.kind f.length
  | unresolved {path rest : Text} {kind : ErrorKind} : (Lexeme.reference path).WellFormed →
      (r.resolve (referencePath folder path)).value = .error kind →
      Stops r folder ((Lexeme.reference path).text ++ rest) kind none

theorem Stops.value_tokensFrom {t : Text} {kind : ErrorKind} {length : Option Nat}
    (h : r.Stops s.folder t kind length) (n : Nat) :
    (r.tokensFrom s n t).value = .failed ⟨kind, s, n, length⟩ := by
  cases h with
  | fault hc hf =>
    rw [tokensFrom, lex_fault hc hf]
    rfl
  | unresolved hw hkind =>
    rw [tokensFrom_append hw trivial]
    simp [meaning, hkind]

/-- The lexemes form a cut in front of `rest`, and the references among them are found. -/
structure Reaches (r : Resolver) (folder : Path) (content : Text → Text) (ls : List Lexeme)
    (rest : Text) : Prop where
  cut : Cut rest ls
  finds : ∀ l ∈ ls, r.Finds folder content l

namespace Reaches

variable {folder : Path} {content : Text → Text} {ls ls' : List Lexeme} {rest : Text}

theorem nil : r.Reaches folder content [] rest := ⟨trivial, fun _ hl => by cases hl⟩

theorem cons {l : Lexeme} (hw : l.WellFormed) (he : l.EndsBefore (written ls ++ rest))
    (hl : r.Finds folder content l) (h : r.Reaches folder content ls rest) :
    r.Reaches folder content (l :: ls) rest := by
  refine ⟨⟨hw, he, h.cut⟩, ?_⟩
  intro l' hl'
  rcases List.mem_cons.1 hl' with rfl | hl'
  · exact hl
  · exact h.finds l' hl'

theorem of_cons {l : Lexeme} (h : r.Reaches folder content (l :: ls) rest) :
    l.WellFormed ∧ l.EndsBefore (written ls ++ rest) ∧ r.Finds folder content l ∧
      r.Reaches folder content ls rest := by
  obtain ⟨⟨hw, he, hcut⟩, hfinds⟩ := h
  refine ⟨hw, he, hfinds l List.mem_cons_self, hcut, ?_⟩
  intro l' hl'
  exact hfinds l' (List.mem_cons_of_mem _ hl')

theorem append_iff : r.Reaches folder content (ls ++ ls') rest ↔
    r.Reaches folder content ls (written ls' ++ rest) ∧ r.Reaches folder content ls' rest := by
  constructor
  · rintro ⟨hcut, hfinds⟩
    obtain ⟨hls, hls'⟩ := Cut.append_iff.1 hcut
    refine ⟨⟨hls, ?_⟩, ⟨hls', ?_⟩⟩
    · intro l hl
      exact hfinds l (List.mem_append_left _ hl)
    · intro l hl
      exact hfinds l (List.mem_append_right _ hl)
  · rintro ⟨⟨hls, hf⟩, ⟨hls', hf'⟩⟩
    refine ⟨Cut.append_iff.2 ⟨hls, hls'⟩, ?_⟩
    intro l hl
    rcases List.mem_append.1 hl with hl | hl
    · exact hf l hl
    · exact hf' l hl

/-- **A run.** The tokens of the lexemes come first; then tokenizing goes on behind them. -/
theorem value_tokensFrom (h : r.Reaches s.folder content ls rest) (n : Nat) :
    (r.tokensFrom s n (written ls ++ rest)).value =
      (r.tokensFrom s (n + (written ls).length) rest).value.prepend (tokensAt content s n ls) := by
  induction ls generalizing n with
  | nil => rfl
  | cons l ls ih =>
    obtain ⟨hw, he, hl, hls⟩ := h.of_cons
    have htail := ih hls (n + l.length)
    rw [length_written_cons, written_cons, List.append_assoc, value_tokensFrom_append hw he hl,
      htail, Outcome.prepend_prepend, Nat.add_assoc]
    rfl

end Reaches

/-- **Every text is a run, up to its end or to where tokenizing stops.** -/
theorem exists_reaches (r : Resolver) (folder : Path) (t : Text) :
    ∃ ls rest, t = written ls ++ rest ∧ r.Reaches folder (r.content folder) ls rest ∧
      (rest = [] ∨ ∃ kind length, r.Stops folder rest kind length) := by
  induction t using lex.induct with
  | case1 => exact ⟨[], [], rfl, .nil, .inl rfl⟩
  | case2 c t hc ih =>
    obtain ⟨ls, rest, ht, hreach, hend⟩ := ih
    have hblank : (Lexeme.blank (c :: t.takeWhile isLayout)).WellFormed := by
      refine ⟨by simp, ?_⟩
      intro d hd
      rcases List.mem_cons.1 hd with rfl | hd
      · exact hc
      · exact List.mem_takeWhile_imp hd
    refine ⟨.blank (c :: t.takeWhile isLayout) :: ls, rest, ?_, ?_, hend⟩
    · rw [written_cons, List.append_assoc, ← ht, Lexeme.text, List.cons_append,
        List.takeWhile_append_dropWhile]
    · exact .cons hblank trivial (fun p hp => Lexeme.noConfusion hp) hreach
  | case3 c t hc l after hread ih =>
    have hc : isLayout c = false := by simpa using hc
    obtain ⟨htext, hw⟩ := Start.read_of_eq hc hread
    rcases r.finds_or_error folder l with hl | ⟨path, kind, rfl, hkind⟩
    · obtain ⟨ls, rest, ht, hreach, hend⟩ := ih
      refine ⟨l :: ls, rest, ?_, ?_, hend⟩
      · rw [htext, written_cons, List.append_assoc, ← ht]
      · exact .cons hw (ht ▸ Start.endsBefore_of_read hread) hl hreach
    · refine ⟨[], c :: t, rfl, .nil, .inr ⟨kind, none, ?_⟩⟩
      rw [htext]
      exact .unresolved hw hkind
  | case4 c t hc f hread =>
    exact ⟨[], c :: t, rfl, .nil, .inr ⟨_, _, .fault (by simpa using hc) hread⟩⟩
  | case5 c t hc hread => exact absurd hread (Start.read_of_ne_mismatch c t)

/-- **The outcome for one script**: the tokens of a run, then the end of the file or the error. -/
theorem exists_run (r : Resolver) (s : Script) :
    ∃ ls rest, s.text = written ls ++ rest ∧ r.Reaches s.folder (r.content s.folder) ls rest ∧
      ((rest = [] ∧ (r.tokenize [s]).value =
          ⟨tokensAt (r.content s.folder) s 0 ls ++ [Token.endOfFile s], none⟩) ∨
        ∃ kind length, r.Stops s.folder rest kind length ∧ (r.tokenize [s]).value =
          ⟨tokensAt (r.content s.folder) s 0 ls,
            some ⟨kind, s, (written ls).length, length⟩⟩) := by
  obtain ⟨ls, rest, ht, hreach, hend⟩ := r.exists_reaches s.folder s.text
  refine ⟨ls, rest, ht, hreach, ?_⟩
  rw [value_tokenize_singleton, ht, hreach.value_tokensFrom 0, Nat.zero_add]
  rcases hend with rfl | ⟨kind, length, hstop⟩
  · left
    rw [tokensFrom_nil]
    exact ⟨rfl, rfl⟩
  · right
    refine ⟨kind, length, hstop, ?_⟩
    rw [hstop.value_tokensFrom]
    simp [Outcome.prepend, Outcome.failed]

end Resolver

end ScriptLexer
