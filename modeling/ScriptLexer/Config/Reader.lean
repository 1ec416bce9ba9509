import ScriptLexer.Config.Basic
import ScriptLexer.Files.Disk.Content
import ScriptLexer.Json.Value

/-!
# Reading configurations

A configuration is a JSON object in which each setting may occur once, or a JSON array that gives
the settings in order. What is left out has its standard value. Other members of an object are
passed over with their values.

The first problem from left to right decides. The key of a setting that occurs for the second time
is a problem as soon as it is read.
-/

namespace ScriptLexer

/-- The settings read so far. -/
structure PartialConfig where
  dialect : Option Text
  extension : Option Text
  deriving DecidableEq, Repr

namespace PartialConfig

def none : PartialConfig := ⟨.none, .none⟩

def get (c : PartialConfig) : ConfigField → Option Text
  | .dialect => c.dialect
  | .extension => c.extension

def set (c : PartialConfig) (field : ConfigField) (value : Text) : PartialConfig :=
  match field with
  | .dialect => { c with dialect := some value }
  | .extension => { c with extension := some value }

/-- The configuration, with standard values for what was not read. -/
def complete (c : PartialConfig) : Config :=
  ⟨c.dialect.getD Config.standard.dialect, c.extension.getD Config.standard.extension⟩

end PartialConfig

/-- The setting of a key. -/
def ConfigField.ofKey? (key : Text) : Option ConfigField :=
  [ConfigField.dialect, ConfigField.extension].find? fun f => f.name == key

namespace Config

open Json

/-! ## Objects -/

/-- The input after the colon that follows a key. -/
def readColon (s : Input) : Except Problem Input :=
  match skipBlank s with
  | [] => .error .truncated
  | .char ':' :: rest => .ok rest
  | _ => .error .malformed

/-- Reads a member after the opening quote of its key. -/
def readMember (c : PartialConfig) (s : Input) : Except Problem (PartialConfig × Input) :=
  match readText s with
  | .error e => .error e
  | .ok (key, rest) =>
    match ConfigField.ofKey? key with
    | some field =>
      if (c.get field).isSome then .error .mistyped
      else
        match readColon rest with
        | .error e => .error e
        | .ok rest =>
          match readString rest with
          | .error e => .error e
          | .ok (value, rest) => .ok (c.set field value, rest)
    | none =>
      match readColon rest with
      | .error e => .error e
      | .ok rest =>
        match skip .value [] rest with
        | .error e => .error e
        | .ok rest => .ok (c, rest)

theorem readColon_length {s rest : Input} (h : readColon s = .ok rest) :
    rest.length < s.length := by
  unfold readColon at h
  split at h
  · simp at h
  · next hb =>
    cases h
    exact length_lt_of_skipBlank hb
  · simp at h

theorem readString_length {s rest : Input} {t : Text} (h : readString s = .ok (t, rest)) :
    rest.length < s.length := by
  unfold readString at h
  split at h
  · next hb => exact Nat.lt_trans (readText_length h) (length_lt_of_skipBlank hb)
  · simp at h

theorem readMember_length {c c' : PartialConfig} {s rest : Input}
    (h : readMember c s = .ok (c', rest)) : rest.length < s.length := by
  unfold readMember at h
  split at h
  · simp at h
  next hk =>
  have h1 := readText_length hk
  split at h
  · split at h
    · simp at h
    split at h
    · simp at h
    next hc =>
    have h2 := readColon_length hc
    split at h
    · simp at h
    next hs =>
    have h3 := readString_length hs
    simp only [Except.ok.injEq, Prod.mk.injEq] at h
    rw [← h.2]
    omega
  · split at h
    · simp at h
    next hc =>
    have h2 := readColon_length hc
    split at h
    · simp at h
    next hs =>
    have h3 := skip_length hs
    simp only [Except.ok.injEq, Prod.mk.injEq] at h
    rw [← h.2]
    omega

/-- Reads what follows a member: the end of the object, or a comma and more members. -/
def readMembersAfter (c : PartialConfig) (s : Input) : Except Problem (PartialConfig × Input) :=
  match _h : skipBlank s with
  | [] => .error .truncated
  | .char '\x7d' :: rest => .ok (c, rest)
  | .char ',' :: rest =>
    match _h' : skipBlank rest with
    | [] => .error .truncated
    | .char '"' :: rest =>
      match _h'' : readMember c rest with
      | .error e => .error e
      | .ok (c, rest) => readMembersAfter c rest
    | _ => .error .malformed
  | _ => .error .malformed
termination_by s.length
decreasing_by
  exact Nat.lt_trans (readMember_length _h'')
    (Nat.lt_trans (length_lt_of_skipBlank _h') (length_lt_of_skipBlank _h))

def readMembers (s : Input) : Except Problem (PartialConfig × Input) :=
  match skipBlank s with
  | [] => .error .truncated
  | .char '\x7d' :: rest => .ok (.none, rest)
  | .char '"' :: rest =>
    match readMember .none rest with
    | .error e => .error e
    | .ok (c, rest) => readMembersAfter c rest
  | _ => .error .malformed

/-! ## Arrays -/

/-- Reads what follows the second element of an array. -/
def readEnd (c : PartialConfig) (s : Input) : Except Problem (PartialConfig × Input) :=
  match skipBlank s with
  | [] => .error .truncated
  | .char ']' :: rest => .ok (c, rest)
  | _ => .error .malformed

/-- Reads what follows the first element of an array. -/
def readSecond (c : PartialConfig) (s : Input) : Except Problem (PartialConfig × Input) :=
  match skipBlank s with
  | [] => .error .truncated
  | .char ']' :: rest => .ok (c, rest)
  | .char ',' :: rest =>
    match skipBlank rest with
    | [] => .error .truncated
    | .char ']' :: _ => .error .malformed
    | s =>
      match readString s with
      | .error e => .error e
      | .ok (value, rest) => readEnd (c.set .extension value) rest
  | _ => .error .malformed

/-- Reads an array after its opening bracket. -/
def readElements (s : Input) : Except Problem (PartialConfig × Input) :=
  match skipBlank s with
  | [] => .error .truncated
  | .char ']' :: rest => .ok (.none, rest)
  | s =>
    match readString s with
    | .error e => .error e
    | .ok (value, rest) => readSecond (PartialConfig.none.set .dialect value) rest

/-! ## Documents -/

def readValue (s : Input) : Except Problem (PartialConfig × Input) :=
  match skipBlank s with
  | .char '\x7b' :: rest => readMembers rest
  | .char '[' :: rest => readElements rest
  | s => .error (wrongType s)

/-- The configuration of a document. -/
def read (s : Input) : Except Problem Config :=
  match readValue s with
  | .error e => .error e
  | .ok (c, rest) => if skipBlank rest = [] then .ok c.complete else .error .malformed

/-- The configuration that a text writes. -/
def ofText (t : Text) : Except ConfigError Config :=
  match read (Json.ofText t) with
  | .ok c => .ok c
  | .error e => .error (.json e)

/-- The configuration in a file of a disk. A folder can be opened and not be read. -/
def ofFile (d : Disk) (p : Path) : Except ConfigError Config :=
  match d.find p with
  | .error e => .error (.notOpened p e.message (e = .noEntry))
  | .ok (.file bytes) =>
    match read (Utf8.symbols bytes) with
    | .ok c => .ok c
    | .error e => .error (.json e)
  | .ok _ => .error (.json .unreadable)

end Config

end ScriptLexer
