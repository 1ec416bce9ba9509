import ScriptLexer.Config.Reader
import ScriptLexer.Proofs.Json.Value

/-!
# Documents and the configurations they give

**Documents.** `IsObject ms t` says that the text `t` is an object with the members `ms`, as a relation
that knows of no reader. A member is a setting with the text of its value, or a member that is no
setting, with any value. Keys may be spelled in any way, and blanks may stand around every token.

**Reading.** A member is read from behind the quote of its key up to the end of its value
(`IsMember.readMember_append`). The lemma takes the settings read so far, which must accept that of the
member (`PartialConfig.Accepts`), and the run over all members is its induction
(`IsMembers.readMembersFrom_append`). A member whose setting is not accepted ends the run at its key
(`IsMember.readMembersFrom_again`).

Main result: `ofText_object`. A document gives the settings of its members, and what it gives depends
on nothing else: neither the order of the members, nor how they are laid out and spelled, nor the
members that are no settings.
-/

namespace ScriptLexer

open Json

namespace Config

/-! ## Objects as they are written -/

/-- A member of an object: a setting with its value, or one that is no setting. -/
inductive Member where
  | setting (field : ConfigField) (value : Text)
  | foreign (key : Text)
  deriving DecidableEq, Repr

/-- The setting that a member gives, if it gives one. -/
def Member.settings : Member → List (ConfigField × Text)
  | setting field value => [(field, value)]
  | foreign _ => []

def settings (ms : List Member) : List (ConfigField × Text) := ms.flatMap Member.settings

/-- A member as it is written, from its opening quote to the end of its value. -/
inductive IsMember : Member → Text → Prop where
  | setting {field : ConfigField} {value key w₁ w₂ s : Text} : Spells field.name key →
      IsBlanks w₁ → IsBlanks w₂ → Spells value s →
      IsMember (.setting field value)
        ('"' :: key ++ '"' :: w₁ ++ ':' :: w₂ ++ '"' :: s ++ ['"'])
  | foreign {name key w₁ w₂ v : Text} : Spells name key → (∀ f : ConfigField, f.name ≠ name) →
      IsBlanks w₁ → IsBlanks w₂ → IsJson .value v →
      IsMember (.foreign name) ('"' :: key ++ '"' :: w₁ ++ ':' :: w₂ ++ v)

/-- Members with commas between them, at least one. -/
inductive IsMembers : List Member → Text → Prop where
  | single {m : Member} {w s w' : Text} : IsBlanks w → IsMember m s → IsBlanks w' →
      IsMembers [m] (w ++ s ++ w')
  | more {m : Member} {ms : List Member} {w s w' r : Text} : IsBlanks w → IsMember m s →
      IsBlanks w' → IsMembers ms r → IsMembers (m :: ms) (w ++ s ++ w' ++ ',' :: r)

/-- A document that is an object. -/
inductive IsObject : List Member → Text → Prop where
  | empty {w₁ w w₂ : Text} : IsBlanks w₁ → IsBlanks w → IsBlanks w₂ →
      IsObject [] (w₁ ++ '\x7b' :: w ++ '\x7d' :: w₂)
  | members {ms : List Member} {w₁ s w₂ : Text} : IsBlanks w₁ → IsMembers ms s → IsBlanks w₂ →
      IsObject ms (w₁ ++ '\x7b' :: s ++ '\x7d' :: w₂)

/-- The configuration with the given settings, and the standard ones where none is given. -/
def given (l : List (ConfigField × Text)) : Config :=
  ⟨(l.lookup .dialect).getD standard.dialect, (l.lookup .extension).getD standard.extension⟩

end Config

/-! ## Settings read so far -/

section Lookup

variable {f : ConfigField} {v : Text} {l : List (ConfigField × Text)}

theorem lookup_eq_none (h : f ∉ l.map Prod.fst) : l.lookup f = none := by
  rw [List.lookup_eq_none_iff]
  intro p hp
  have hne : f ≠ p.1 := fun heq => h (heq ▸ List.mem_map_of_mem hp)
  simpa using hne

theorem lookup_eq_some_iff_mem (h : (l.map Prod.fst).Nodup) :
    l.lookup f = some v ↔ (f, v) ∈ l := by
  induction l with
  | nil => simp
  | cons p l ih =>
    obtain ⟨g, u⟩ := p
    obtain ⟨hnotMem, hnodup⟩ := List.nodup_cons.1 h
    rw [List.lookup_cons, List.mem_cons]
    by_cases heq : f = g
    · subst heq
      have hnotMem : (f, v) ∉ l := fun hv => hnotMem (List.mem_map.2 ⟨(f, v), hv, rfl⟩)
      simp [hnotMem, eq_comm]
    · simp [heq, beq_false_of_ne heq, ih hnodup]

end Lookup

namespace PartialConfig

variable {c : PartialConfig} {f g : ConfigField} {v : Text} {l l' : List (ConfigField × Text)}

theorem get_set : (c.set f v).get g = if g = f then some v else c.get g := by
  cases f <;> cases g <;> rfl

/-- Records settings in order. -/
def setAll (c : PartialConfig) (l : List (ConfigField × Text)) : PartialConfig :=
  l.foldl (fun c p => c.set p.1 p.2) c

theorem setAll_append : c.setAll (l ++ l') = (c.setAll l).setAll l' := List.foldl_append

theorem get_setAll (h : (l.map Prod.fst).Nodup) :
    (c.setAll l).get f = (l.lookup f).or (c.get f) := by
  induction l generalizing c with
  | nil => rfl
  | cons p l ih =>
    obtain ⟨g, v⟩ := p
    obtain ⟨hnotMem, hnodup⟩ := List.nodup_cons.1 h
    have hstep : (c.setAll ((g, v) :: l)).get f = (l.lookup f).or ((c.set g v).get f) := ih hnodup
    rw [hstep, get_set, List.lookup_cons]
    by_cases heq : f = g
    · subst heq
      simp [lookup_eq_none hnotMem]
    · simp [heq, beq_false_of_ne heq]

theorem complete_setAll (h : (l.map Prod.fst).Nodup) :
    (PartialConfig.none.setAll l).complete = Config.given l := by
  have hdialect := get_setAll (c := .none) (f := .dialect) h
  have hextension := get_setAll (c := .none) (f := .extension) h
  simp only [get, PartialConfig.none, Option.or_none] at hdialect hextension
  simp only [complete, Config.given, PartialConfig.none, hdialect, hextension]

/-- Settings that can be recorded: each is given once, and was not read yet. -/
def Accepts (c : PartialConfig) (l : List (ConfigField × Text)) : Prop :=
  (l.map Prod.fst).Nodup ∧ ∀ f ∈ l.map Prod.fst, c.get f = .none

theorem accepts_singleton : c.Accepts [(f, v)] ↔ c.get f = .none := by
  simp [Accepts]

theorem accepts_none (h : (l.map Prod.fst).Nodup) : PartialConfig.none.Accepts l :=
  ⟨h, fun f _ => by cases f <;> rfl⟩

theorem isSome_get_setAll (h : (l.map Prod.fst).Nodup) (hf : f ∈ l.map Prod.fst) :
    ((c.setAll l).get f).isSome := by
  obtain ⟨⟨g, v⟩, hmem, rfl⟩ := List.mem_map.1 hf
  rw [get_setAll h, (lookup_eq_some_iff_mem h).2 hmem]
  rfl

theorem accepts_append : c.Accepts (l ++ l') ↔ c.Accepts l ∧ (c.setAll l).Accepts l' := by
  simp only [Accepts, List.map_append, List.nodup_append, List.forall_mem_append]
  constructor
  · rintro ⟨⟨hl, hl', hdisjoint⟩, hread, hread'⟩
    refine ⟨⟨hl, hread⟩, hl', fun f hf => ?_⟩
    have hnotMem : f ∉ l.map Prod.fst := fun hmem => hdisjoint f hmem f hf rfl
    rw [get_setAll hl, lookup_eq_none hnotMem, hread' f hf]
    rfl
  · rintro ⟨⟨hl, hread⟩, hl', hread'⟩
    refine ⟨⟨hl, hl', ?_⟩, hread, fun f hf => ?_⟩
    · rintro f hf g hg rfl
      have hsome := isSome_get_setAll (c := c) hl hf
      simp [hread' f hg] at hsome
    · have hnone := hread' f hf
      rw [get_setAll hl, Option.or_eq_none_iff] at hnone
      exact hnone.2

end PartialConfig

theorem Config.given_perm {l l' : List (ConfigField × Text)} (h : l.Perm l')
    (hl : (l.map Prod.fst).Nodup) : given l = given l' := by
  have hl' : (l'.map Prod.fst).Nodup := (h.map Prod.fst).nodup_iff.1 hl
  have hlookup : ∀ f, l.lookup f = l'.lookup f := by
    intro f
    ext v
    rw [lookup_eq_some_iff_mem hl, lookup_eq_some_iff_mem hl', h.mem_iff]
  simp only [given, hlookup]

/-! ## Keys -/

theorem ConfigField.ofKey?_name (f : ConfigField) : ofKey? f.name = some f := by
  cases f <;> rfl

theorem ConfigField.ofKey?_eq_none {key : Text} (h : ∀ f : ConfigField, f.name ≠ key) :
    ofKey? key = none := by
  simp [ofKey?, h]

namespace Config

/-! ## Members are read as they are written -/

section Reading

variable {c : PartialConfig} {field : ConfigField} {w w' key s name value : Text} {rest : Input}

theorem readColon_append (hw : IsBlanks w) (rest : Input) :
    readColon (Json.ofText w ++ .char ':' :: rest) = .ok rest := by
  rw [readColon, skipBlank_append hw, skipBlank_cons (by decide)]
  rfl

theorem readString_append (hw : IsBlanks w) (hs : Spells value s) (rest : Input) :
    readString (Json.ofText w ++ .char '"' :: (Json.ofText s ++ .char '"' :: rest)) =
      .ok (value, rest) := by
  rw [readString, skipBlank_append hw, skipBlank_cons (by decide)]
  exact hs.readText_append rest

theorem readMember_again (hkey : Spells field.name key) (hread : (c.get field).isSome)
    (rest : Input) :
    readMember c (Json.ofText key ++ .char '"' :: rest) = .error .mistyped := by
  simp only [readMember, hkey.readText_append, ConfigField.ofKey?_name, hread, if_true]

theorem readMember_setting (hkey : Spells field.name key) (hread : c.get field = none) :
    readMember c (Json.ofText key ++ .char '"' :: rest) =
      ((readColon rest).bind readString).map fun (value, rest) => (c.set field value, rest) := by
  simp only [readMember, hkey.readText_append, ConfigField.ofKey?_name, hread, Option.isSome_none,
    Bool.false_eq_true, if_false]
  cases readColon rest with
  | error e => rfl
  | ok rest => cases hnext : readString rest <;> simp [Except.bind, Except.map, hnext]

theorem readMember_foreign (hkey : Spells name key) (hname : ∀ f : ConfigField, f.name ≠ name) :
    readMember c (Json.ofText key ++ .char '"' :: rest) =
      ((readColon rest).bind (skip .value [])).map fun rest => (c, rest) := by
  simp only [readMember, hkey.readText_append, ConfigField.ofKey?_eq_none hname]
  cases readColon rest with
  | error e => rfl
  | ok rest => cases hnext : skip .value [] rest <;> simp [Except.bind, Except.map, hnext]

/-- **A member is read as it is written.** -/
theorem IsMember.readMember_append {m : Member} (h : IsMember m s) (hc : c.Accepts m.settings)
    (hrest : EndsNumber rest) :
    ∃ r, Json.ofText s ++ rest = .char '"' :: r ∧
      readMember c r = .ok (c.setAll m.settings, rest) := by
  cases h with
  | @setting _ _ key w₁ w₂ s hkey hw₁ hw₂ hs =>
    refine ⟨Json.ofText key ++ .char '"' :: (Json.ofText w₁ ++ .char ':' :: (Json.ofText w₂ ++
      .char '"' :: (Json.ofText s ++ .char '"' :: rest))), by simp, ?_⟩
    rw [readMember_setting hkey (PartialConfig.accepts_singleton.1 hc)]
    simp only [readColon_append hw₁, Except.bind, readString_append hw₂ hs]
    rfl
  | @foreign name key w₁ w₂ v hkey hname hw₁ hw₂ hv =>
    refine ⟨Json.ofText key ++ .char '"' :: (Json.ofText w₁ ++ .char ':' :: (Json.ofText w₂ ++
      (Json.ofText v ++ rest))), by simp, ?_⟩
    have hskip : skip .value [] (Json.ofText w₂ ++ (Json.ofText v ++ rest)) = .ok rest :=
      (skip_value_congr (skipBlank_append hw₂ _)).trans (hv.skip_append hrest)
    rw [readMember_foreign hkey hname]
    simp only [readColon_append hw₁, Except.bind, hskip]
    rfl

/-- Members up to the end of the object, from the blanks in front of a key. -/
def readMembersFrom (c : PartialConfig) (s : Input) : Except Problem (PartialConfig × Input) :=
  match skipBlank s with
  | [] => .error .truncated
  | .char '"' :: rest =>
    match readMember c rest with
    | .error e => .error e
    | .ok (c, rest) => readMembersAfter c rest
  | _ => .error .malformed

theorem readMembersAfter_congr {s s' : Input} (h : skipBlank s = skipBlank s') :
    readMembersAfter c s = readMembersAfter c s' := by
  rw [readMembersAfter, readMembersAfter, h]

theorem readMembersAfter_comma (s : Input) :
    readMembersAfter c (.char ',' :: s) = readMembersFrom c s := by
  have hcomma : skipBlank (.char ',' :: s) = .char ',' :: s := skipBlank_cons (by decide) s
  rw [readMembersAfter, readMembersFrom]
  split
  · simp_all
  · simp_all
  · next heq =>
    rw [hcomma] at heq
    obtain ⟨-, rfl⟩ := List.cons.inj heq
    -- What is left of the two readers differs in the equations kept for termination only.
    split
    · simp_all
    · next heq' =>
      simp only [heq']
      split <;> simp_all
    · simp_all
  · simp_all

theorem readMembersAfter_close (s : Input) :
    readMembersAfter c (.char '\x7d' :: s) = .ok (c, s) := by
  have hclose : skipBlank (.char '\x7d' :: s) = .char '\x7d' :: s := skipBlank_cons (by decide) s
  rw [readMembersAfter]
  split <;> simp_all

theorem readMembers_eq (s : Input) (h : ∀ rest, skipBlank s ≠ .char '\x7d' :: rest) :
    readMembers s = readMembersFrom .none s := by
  rw [readMembers, readMembersFrom]
  split
  · simp_all
  · simp_all
  · next rest heq => cases hread : readMember .none rest <;> simp [heq, hread]
  · simp_all

theorem readMembersFrom_key_again (hw : IsBlanks w) (hkey : Spells field.name key)
    (hread : (c.get field).isSome) (rest : Input) :
    readMembersFrom c (Json.ofText w ++ .char '"' :: (Json.ofText key ++ .char '"' :: rest)) =
      .error .mistyped := by
  rw [readMembersFrom, skipBlank_append hw, skipBlank_cons (by decide)]
  simp only [readMember_again hkey hread]

theorem IsMember.readMembersFrom_append {m : Member} (h : IsMember m s) (hw : IsBlanks w)
    (hw' : IsBlanks w') (hc : c.Accepts m.settings) (hrest : EndsNumber rest) :
    readMembersFrom c (Json.ofText (w ++ s ++ w') ++ rest) =
      readMembersAfter (c.setAll m.settings) rest := by
  obtain ⟨r, hr, hread⟩ := h.readMember_append hc (hrest.append_blanks hw')
  simp only [Json.ofText_append, List.append_assoc]
  rw [readMembersFrom, skipBlank_append hw, hr, skipBlank_cons (by decide)]
  simp only [hread]
  exact readMembersAfter_congr (skipBlank_append hw' rest)

theorem IsMember.readMembersFrom_comma {m : Member} (h : IsMember m s) (hw : IsBlanks w)
    (hw' : IsBlanks w') (hc : c.Accepts m.settings) (rest : Input) :
    readMembersFrom c (Json.ofText (w ++ s ++ w') ++ .char ',' :: rest) =
      readMembersFrom (c.setAll m.settings) rest := by
  have hcomma : EndsNumber (.char ',' :: rest) := endsNumber_cons (by decide) rest
  rw [h.readMembersFrom_append hw hw' hc hcomma, readMembersAfter_comma]

/-- **Members are read as they are written**, one after the other. -/
theorem IsMembers.readMembersFrom_append {ms : List Member} (h : IsMembers ms s)
    (hc : c.Accepts (settings ms)) (hrest : EndsNumber rest) :
    readMembersFrom c (Json.ofText s ++ rest) =
      readMembersAfter (c.setAll (settings ms)) rest := by
  induction h generalizing c with
  | @single m w s w' hw hm hw' =>
    rw [show settings [m] = m.settings by simp [settings]] at hc ⊢
    exact hm.readMembersFrom_append hw hw' hc hrest
  | @more m ms w s w' r hw hm hw' hms ih =>
    obtain ⟨hm', hms'⟩ := PartialConfig.accepts_append.1 hc
    calc readMembersFrom c (Json.ofText (w ++ s ++ w' ++ ',' :: r) ++ rest)
        = readMembersFrom c
            (Json.ofText (w ++ s ++ w') ++ .char ',' :: (Json.ofText r ++ rest)) := by simp
      _ = readMembersFrom (c.setAll m.settings) (Json.ofText r ++ rest) :=
          hm.readMembersFrom_comma hw hw' hm' _
      _ = readMembersAfter ((c.setAll m.settings).setAll (settings ms)) rest := ih hms'
      _ = readMembersAfter (c.setAll (settings (m :: ms))) rest := by
          rw [← PartialConfig.setAll_append]
          rfl

theorem IsMember.readMembersFrom_again {m : Member} (h : IsMember m s) (hw : IsBlanks w)
    (hc : ¬ c.Accepts m.settings) (rest : Input) :
    readMembersFrom c (Json.ofText (w ++ s) ++ rest) = .error .mistyped := by
  cases h with
  | @setting field _ key w₁ w₂ s hkey hw₁ hw₂ hs =>
    have hread : (c.get field).isSome := by
      rw [Option.isSome_iff_ne_none]
      exact fun hnone => hc (PartialConfig.accepts_singleton.2 hnone)
    simpa using readMembersFrom_key_again hw hkey hread
      (Json.ofText (w₁ ++ ':' :: w₂ ++ '"' :: s ++ ['"']) ++ rest)
  | foreign => exact absurd (by simp [PartialConfig.Accepts, Member.settings]) hc

theorem IsMembers.readMembersFrom_again {ms : List Member} (h : IsMembers ms s)
    (hc : ¬ c.Accepts (settings ms)) (rest : Input) :
    readMembersFrom c (Json.ofText s ++ rest) = .error .mistyped := by
  induction h generalizing c with
  | @single m w s w' hw hm hw' =>
    have hm' : ¬ c.Accepts m.settings := by simpa [settings] using hc
    simpa using hm.readMembersFrom_again hw hm' (Json.ofText w' ++ rest)
  | @more m ms w s w' r hw hm hw' hms ih =>
    by_cases hm' : c.Accepts m.settings
    · have hms' : ¬ (c.setAll m.settings).Accepts (settings ms) := fun h =>
        hc (PartialConfig.accepts_append.2 ⟨hm', h⟩)
      have hstep := hm.readMembersFrom_comma hw hw' hm' (Json.ofText r ++ rest)
      rw [ih hms'] at hstep
      simpa using hstep
    · simpa using hm.readMembersFrom_again hw hm' (Json.ofText (w' ++ ',' :: r) ++ rest)

/-! ## Documents -/

theorem IsMember.starts {m : Member} (h : IsMember m s) (hw : IsBlanks w) (rest : Input) :
    ∃ r, skipBlank (Json.ofText (w ++ s) ++ rest) = .char '"' :: r := by
  obtain ⟨r, rfl⟩ : ∃ r, s = '"' :: r := by
    cases h <;> exact ⟨_, rfl⟩
  simp only [Json.ofText_append, Json.ofText_cons, List.append_assoc, List.cons_append]
  exact ⟨_, (skipBlank_append hw _).trans (skipBlank_cons (by decide) _)⟩

theorem IsMembers.starts {ms : List Member} (h : IsMembers ms s) (rest : Input) :
    ∃ r, skipBlank (Json.ofText s ++ rest) = .char '"' :: r := by
  cases h with
  | @single m w s w' hw hm => simpa using hm.starts hw (Json.ofText w' ++ rest)
  | @more m ms w s w' r hw hm => simpa using hm.starts hw (Json.ofText (w' ++ ',' :: r) ++ rest)

theorem readValue_object (hw : IsBlanks w) (s : Input) :
    readValue (Json.ofText w ++ .char '\x7b' :: s) = readMembers s := by
  rw [readValue, skipBlank_append hw, skipBlank_cons (by decide)]
  rfl

theorem IsMembers.readValue_append {ms : List Member} (h : IsMembers ms s) (hw : IsBlanks w)
    (rest : Input) :
    readValue (Json.ofText (w ++ '\x7b' :: s) ++ rest) =
      readMembersFrom .none (Json.ofText s ++ rest) := by
  obtain ⟨r, hr⟩ := h.starts rest
  have hopen : ∀ q, skipBlank (Json.ofText s ++ rest) ≠ .char '\x7d' :: q := by
    intro q hq
    rw [hr] at hq
    cases hq
  simp only [Json.ofText_append, Json.ofText_cons, List.append_assoc, List.cons_append]
  rw [readValue_object hw, readMembers_eq _ hopen]

theorem ofText_eq_ok {t : Text} (h : readValue (Json.ofText t) = .ok (c, Json.ofText w))
    (hw : IsBlanks w) : ofText t = .ok c.complete := by
  simp [ofText, read, h, skipBlank_ofText hw]

theorem ofText_eq_error {t : Text} {e : Problem} (h : readValue (Json.ofText t) = .error e) :
    ofText t = .error (.json e) := by
  simp [ofText, read, h]

/-- **An object gives the settings of its members**, and is wrong if one is given twice. -/
theorem IsObject.ofText_eq {ms : List Member} {t : Text} (h : IsObject ms t) :
    ofText t =
      if ((settings ms).map Prod.fst).Nodup then .ok (given (settings ms))
      else .error (.json .mistyped) := by
  cases h with
  | @empty w₁ w w₂ hw₁ hw hw₂ =>
    have hread : readValue (Json.ofText (w₁ ++ '\x7b' :: w ++ '\x7d' :: w₂)) =
        .ok (.none, Json.ofText w₂) := by
      simp only [Json.ofText_append, Json.ofText_cons, List.append_assoc, List.cons_append]
      rw [readValue_object hw₁, readMembers, skipBlank_append hw, skipBlank_cons (by decide)]
      rfl
    exact ofText_eq_ok hread hw₂
  | @members _ w₁ s w₂ hw₁ hs hw₂ =>
    have hclose : EndsNumber (.char '\x7d' :: Json.ofText w₂) := endsNumber_cons (by decide) _
    have hopened := hs.readValue_append hw₁ (.char '\x7d' :: Json.ofText w₂)
    have htext : Json.ofText (w₁ ++ '\x7b' :: s ++ '\x7d' :: w₂) =
        Json.ofText (w₁ ++ '\x7b' :: s) ++ .char '\x7d' :: Json.ofText w₂ :=
      Json.ofText_append _ _
    rw [← htext] at hopened
    split
    · next hnodup =>
      rw [hs.readMembersFrom_append (PartialConfig.accepts_none hnodup) hclose,
        readMembersAfter_close] at hopened
      rw [ofText_eq_ok hopened hw₂, PartialConfig.complete_setAll hnodup]
    · next hnodup =>
      rw [hs.readMembersFrom_again fun h => hnodup h.1] at hopened
      exact ofText_eq_error hopened

theorem IsObject.ofText_perm {ms ms' : List Member} {t t' : Text} (h : IsObject ms t)
    (h' : IsObject ms' t') (hperm : (settings ms).Perm (settings ms')) : ofText t = ofText t' := by
  have hnodup := (hperm.map Prod.fst).nodup_iff
  rw [h.ofText_eq, h'.ofText_eq]
  by_cases hms : ((settings ms).map Prod.fst).Nodup
  · rw [if_pos hms, if_pos (hnodup.1 hms), given_perm hperm hms]
  · rw [if_neg hms, if_neg fun h => hms (hnodup.2 h)]

theorem ofText_again {ms : List Member} (hw : IsBlanks w) (hs : IsMembers ms s)
    (hnodup : ((settings ms).map Prod.fst).Nodup) (hw' : IsBlanks w')
    (hfield : field ∈ (settings ms).map Prod.fst) (hkey : Spells field.name key) (t : Text) :
    ofText (w ++ '\x7b' :: s ++ ',' :: w' ++ '"' :: key ++ '"' :: t) =
      .error (.json .mistyped) := by
  have hcomma : EndsNumber (Json.ofText (',' :: w' ++ '"' :: key ++ '"' :: t)) :=
    endsNumber_cons (by decide) _
  have hread := hs.readValue_append hw (Json.ofText (',' :: w' ++ '"' :: key ++ '"' :: t))
  rw [hs.readMembersFrom_append (PartialConfig.accepts_none hnodup) hcomma] at hread
  simp only [Json.ofText_append, Json.ofText_cons, List.append_assoc, List.cons_append,
    readMembersAfter_comma, readMembersFrom_key_again hw' hkey
      (PartialConfig.isSome_get_setAll hnodup hfield)] at hread
  exact ofText_eq_error (by simpa using hread)

/-- **A document gives the settings of its members.** Each object whose settings are given once is read
as those settings, with the standard values for the others. Two objects with the same settings, in any
order and among any other members, are read alike. Behind well-formed members, the key of a setting that
they give is the wrong type, whatever follows. -/
theorem ofText_object :
    (∀ ms t, IsObject ms t → ((settings ms).map Prod.fst).Nodup →
      ofText t = .ok (given (settings ms))) ∧
    (∀ ms ms' t t', IsObject ms t → IsObject ms' t' → (settings ms).Perm (settings ms') →
      ofText t = ofText t') ∧
    (∀ ms w s w' field key t, IsBlanks w → IsMembers ms s →
      ((settings ms).map Prod.fst).Nodup → IsBlanks w' → field ∈ (settings ms).map Prod.fst →
      Spells field.name key →
      ofText (w ++ '\x7b' :: s ++ ',' :: w' ++ '"' :: key ++ '"' :: t) =
        .error (.json .mistyped)) := by
  refine ⟨fun ms t h hnodup => ?_, fun ms ms' t t' h h' => h.ofText_perm h',
    fun ms w s w' field key t hw hs hnodup hw' hfield hkey =>
      ofText_again hw hs hnodup hw' hfield hkey t⟩
  rw [h.ofText_eq, if_pos hnodup]

/-- A bracket in a string of a nested value closes nothing, and an escape in a setting is read. The
setting that comes again is not read any more. -/
theorem ofText_object_nested :
    ofText (['\x7b', '"', 'x', '"', ':', '[', '\x7b', '"', 'k', '"', ':', '"', ']', '"', '\x7d', ']',
          ',', '"'] ++ ConfigField.extension.name ++
          ['"', ' ', ':', '"', 's', '\\', 'u', '0', '0', '7', '1', 'l', '"', '\x7d']) =
        .ok ⟨standard.dialect, ['s', 'q', 'l']⟩ ∧
      ofText (['\x7b', '"', 'x', '"', ':', '[', '\x7b', '"', 'k', '"', ':', '"', ']', '"', '\x7d', ']',
          ',', '"'] ++ ConfigField.extension.name ++
          ['"', ' ', ':', '"', 's', '\\', 'u', '0', '0', '7', '1', 'l', '"', ',', '"'] ++
          ConfigField.extension.name ++ ['"', '?']) =
        .error (.json .mistyped) := by
  have hnil := isBlanks_nil
  have hblank : IsBlanks [' '] := by simp [IsBlanks]
  have hplain : ∀ c ∈ ['k', ']', 's', 'l'], IsPlain c := by simp [IsPlain]
  have hobject : IsJson .value ['\x7b', '"', 'k', '"', ':', '"', ']', '"', '\x7d'] :=
    .bracketed .object (.single (@IsJson.member [] ['k'] [] [] _ [] hnil
      (.cons (.plain (hplain 'k' (by decide))) .nil) hnil hnil
      (.string (.cons (.plain (hplain ']' (by decide))) .nil)) hnil))
  have hlist : IsJson .value ['[', '\x7b', '"', 'k', '"', ':', '"', ']', '"', '\x7d', ']'] :=
    .bracketed .list (.single (@IsJson.element [] _ [] hnil hobject hnil))
  have hforeign := @IsMember.foreign ['x'] ['x'] [] [] _ (spells_escape ['x'])
    (by rintro (_ | _) <;> decide) hnil hnil hlist
  have hname : Spells ConfigField.extension.name ConfigField.extension.name := by
    have hescape : ConfigField.extension.name.flatMap escape = ConfigField.extension.name := by
      decide
    rw [← hescape]
    exact spells_escape _
  have hdigit : ∀ d < 16, IsHexDigit d (Nat.digitChar d) := fun d hd => ⟨hd, .inl rfl⟩
  have hq : SpellsChar 'q' ['\\', 'u', '0', '0', '7', '1'] :=
    .code (.digits (hdigit 0 (by decide)) (hdigit 0 (by decide)) (hdigit 7 (by decide))
      (hdigit 1 (by decide)))
  have hvalue : Spells ['s', 'q', 'l'] ['s', '\\', 'u', '0', '0', '7', '1', 'l'] :=
    .cons (.plain (hplain 's' (by decide))) (.cons hq (.cons (.plain (hplain 'l' (by decide))) .nil))
  have hsetting := @IsMember.setting .extension _ _ [' '] [] _ hname hblank hnil hvalue
  have hmembers := IsMembers.more hnil hforeign hnil (.single hnil hsetting hnil)
  have hnodup : ((settings [.foreign ['x'], .setting .extension ['s', 'q', 'l']]).map
      Prod.fst).Nodup := by
    decide
  have hread := ofText_object.1 _ _ (.members hnil hmembers hnil) hnodup
  have hagain := ofText_object.2.2 _ [] _ [] .extension _ ['?'] hnil hmembers hnodup hnil (by decide)
    hname
  have hgiven : given (settings [.foreign ['x'], .setting .extension ['s', 'q', 'l']]) =
      ⟨standard.dialect, ['s', 'q', 'l']⟩ := rfl
  rw [hgiven] at hread
  exact ⟨by simpa using hread, by simpa using hagain⟩

end Reading

end Config

end ScriptLexer
