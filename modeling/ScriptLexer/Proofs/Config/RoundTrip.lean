import ScriptLexer.Proofs.Config.Document

/-!
# Configurations come back as they were written

`Config.serialize` writes an object of two settings, so its text is read as a document
(`IsObject.ofText_eq`), and the settings that come back are the ones that were written. No character of
a setting is an exception, since a text is written as one of its spellings.

**A document that is cut off is truncated.** Up to the end of the last setting nothing that was read is
wrong, wherever the cut is: each reader that meets the end has only read the start of what it wants. The
lemmas on cuts follow the parts of a member in order, and say for each that a start of it is truncated.
Only the closing brace completes a document, so a part of one is never taken for a shorter document with
standard values.

Main result: `ofText_serialize`.
-/

namespace ScriptLexer

open Json

namespace Config

section Cut

variable {c : PartialConfig} {field : ConfigField} {w w' w₁ w₂ key s value p : Text}

/-! ## Settings that are cut off -/

theorem readColon_truncated (hw : IsBlanks w) (hp : p <+: w) :
    readColon (Json.ofText p) = .error .truncated := by
  rw [readColon, skipBlank_ofText (hw.of_prefix hp)]

theorem readString_truncated (hw : IsBlanks w) (hs : Spells value s) (hp : p <+: w ++ '"' :: s) :
    readString (Json.ofText p) = .error .truncated := by
  obtain hp | ⟨q, hq, rfl⟩ := prefix_append_cons_cases hp
  · rw [readString, skipBlank_ofText (hw.of_prefix hp)]
    rfl
  · rw [Json.ofText_append, Json.ofText_cons, readString, skipBlank_append hw,
      skipBlank_cons (by decide)]
    exact hs.readText_truncated hq

theorem readMember_truncated (hkey : Spells field.name key) (hread : c.get field = none)
    (hw₁ : IsBlanks w₁) (hw₂ : IsBlanks w₂) (hs : Spells value s)
    (hp : p <+: key ++ '"' :: (w₁ ++ ':' :: (w₂ ++ '"' :: s))) :
    readMember c (Json.ofText p) = .error .truncated := by
  obtain hp | ⟨q, hq, rfl⟩ := prefix_append_cons_cases hp
  · simp only [readMember, hkey.readText_truncated hp]
  rw [Json.ofText_append, Json.ofText_cons, readMember_setting hkey hread]
  obtain hq | ⟨r, hr, rfl⟩ := prefix_append_cons_cases hq
  · simp only [readColon_truncated hw₁ hq, Except.bind, Except.map]
  · simp only [Json.ofText_append, Json.ofText_cons, readColon_append hw₁, Except.bind, Except.map,
      readString_truncated hw₂ hs hr]

theorem IsMember.readMembersFrom_cut (h : IsMember (.setting field value) s)
    (hw : IsBlanks w) (hread : c.get field = none) (hp : p <+: w ++ s) (hne : p ≠ w ++ s) :
    readMembersFrom c (Json.ofText p) = .error .truncated := by
  obtain @⟨_, _, key, w₁, w₂, u, hkey, hw₁, hw₂, hu⟩ := h
  have hclosed : p <+: (w ++ '"' :: (key ++ '"' :: (w₁ ++ ':' :: (w₂ ++ '"' :: u)))) ++ ['"'] := by
    simpa using hp
  obtain rfl | hp := List.prefix_concat_iff.1 hclosed
  · exact absurd (by simp) hne
  obtain hp | ⟨q, hq, rfl⟩ := prefix_append_cons_cases hp
  · rw [readMembersFrom, skipBlank_ofText (hw.of_prefix hp)]
  · rw [Json.ofText_append, Json.ofText_cons, readMembersFrom, skipBlank_append hw,
      skipBlank_cons (by decide)]
    simp only [readMember_truncated hkey hread hw₁ hw₂ hu hq]

theorem readMembersAfter_nil : readMembersAfter c [] = .error .truncated := by
  have hblank : skipBlank [] = [] := rfl
  rw [readMembersAfter]
  split <;> simp_all

theorem IsMember.readMembersFrom_truncated (h : IsMember (.setting field value) s) (hw : IsBlanks w)
    (hw' : IsBlanks w') (hread : c.get field = none) (hp : p <+: w ++ s ++ w') :
    readMembersFrom c (Json.ofText p) = .error .truncated := by
  obtain ⟨hp, hne⟩ | ⟨q, hq, rfl⟩ := prefix_append_cases hp
  · exact h.readMembersFrom_cut hw hread hp hne
  · have hc : c.Accepts (Member.setting field value).settings :=
      PartialConfig.accepts_singleton.2 hread
    rw [← List.append_nil (Json.ofText _),
      h.readMembersFrom_append hw (hw'.of_prefix hq) hc endsNumber_nil]
    exact readMembersAfter_nil

/-- **Settings that are cut off are truncated**, and so are all of them without what follows. -/
theorem IsMembers.readMembersFrom_truncated {ms : List Member} (h : IsMembers ms s)
    (hms : ∀ m ∈ ms, ∃ field value, m = .setting field value) (hc : c.Accepts (settings ms))
    (hp : p <+: s) : readMembersFrom c (Json.ofText p) = .error .truncated := by
  induction h generalizing c p with
  | single hw hm hw' =>
    obtain ⟨field, value, rfl⟩ := hms _ List.mem_cons_self
    exact hm.readMembersFrom_truncated hw hw' (PartialConfig.accepts_singleton.1 hc) hp
  | @more m ms w s w' r hw hm hw' hrest ih =>
    obtain ⟨field, value, rfl⟩ := hms _ List.mem_cons_self
    obtain ⟨hc, hcs⟩ := PartialConfig.accepts_append.1 hc
    obtain hp | ⟨q, hq, rfl⟩ := prefix_append_cons_cases hp
    · exact hm.readMembersFrom_truncated hw hw' (PartialConfig.accepts_singleton.1 hc) hp
    · rw [Json.ofText_append, Json.ofText_cons, hm.readMembersFrom_comma hw hw' hc]
      exact ih (fun m hm => hms m (List.mem_cons_of_mem _ hm)) hcs hq

theorem readMembers_truncated {s : Input} (h : readMembersFrom .none s = .error .truncated) :
    readMembers s = .error .truncated := by
  rw [readMembers_eq, h]
  intro rest hrest
  rw [readMembersFrom, hrest] at h
  cases h

/-- **An object of settings is truncated without its closing brace**, wherever it ends. -/
theorem IsMembers.ofText_truncated {ms : List Member} (h : IsMembers ms s)
    (hms : ∀ m ∈ ms, ∃ field value, m = .setting field value)
    (hnodup : ((settings ms).map Prod.fst).Nodup) (hw : IsBlanks w) (hp : p <+: w ++ '\x7b' :: s) :
    ofText p = .error (.json .truncated) := by
  apply ofText_eq_error
  obtain hp | ⟨q, hq, rfl⟩ := prefix_append_cons_cases hp
  · rw [readValue, skipBlank_ofText (hw.of_prefix hp)]
    rfl
  · rw [Json.ofText_append, Json.ofText_cons, readValue_object hw]
    exact readMembers_truncated
      (h.readMembersFrom_truncated hms (PartialConfig.accepts_none hnodup) hq)

end Cut

/-! ## Configurations that are written -/

theorem isMember_quote (field : ConfigField) (value : Text) :
    IsMember (.setting field value) (quote field.name ++ ':' :: quote value) := by
  have hmember := IsMember.setting (spells_escape field.name) isBlanks_nil isBlanks_nil
    (spells_escape value)
  simpa [quote] using hmember

def members (c : Config) : List Member :=
  [.setting .dialect c.dialect, .setting .extension c.extension]

theorem nodup_members (c : Config) : ((settings c.members).map Prod.fst).Nodup := by
  simp [settings, members, Member.settings]

theorem isMembers_members (c : Config) :
    IsMembers c.members (quote ConfigField.dialect.name ++ ':' :: quote c.dialect ++
      ',' :: quote ConfigField.extension.name ++ ':' :: quote c.extension) := by
  have hmembers := IsMembers.more isBlanks_nil (isMember_quote .dialect c.dialect) isBlanks_nil
    (.single isBlanks_nil (isMember_quote .extension c.extension) isBlanks_nil)
  simpa [members] using hmembers

theorem isObject_serialize (c : Config) : IsObject c.members c.serialize := by
  simpa [serialize] using IsObject.members isBlanks_nil c.isMembers_members isBlanks_nil

/-- **A configuration is read back from what was written**, and every part of that is truncated. -/
theorem ofText_serialize (c : Config) :
    ofText c.serialize = .ok c ∧
      ∀ p, p <+: c.serialize → p ≠ c.serialize → ofText p = .error (.json .truncated) := by
  constructor
  · rw [c.isObject_serialize.ofText_eq, if_pos c.nodup_members]
    rfl
  · intro p hp hne
    obtain hp | hp := List.prefix_concat_iff.1 hp
    · exact absurd hp hne
    · exact c.isMembers_members.ofText_truncated (by simp [members]) c.nodup_members isBlanks_nil
        (by simpa using hp)

/-- An escape that is cut off is truncated like any other part. -/
theorem ofText_serialize_cut :
    ofText (serialize ⟨['"', '\x01', '😀'], []⟩) = .ok ⟨['"', '\x01', '😀'], []⟩ ∧
      ofText (List.take 26 (serialize ⟨['"', '\x01', '😀'], []⟩)) = .error (.json .truncated) :=
  ⟨(ofText_serialize _).1, (ofText_serialize _).2 _ (List.take_prefix _ _) (by decide)⟩

end Config

end ScriptLexer
