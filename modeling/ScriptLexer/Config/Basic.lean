import ScriptLexer.Json.Text
import ScriptLexer.Path.Basic

/-!
# Configuration

The dialect whose file variants are preferred, and the extension of scripts. The dialect becomes
part of file names, so it must be neither blank nor hold a separator; the extension must not be
blank. `Config.validate` looks at the dialect first.
-/

namespace ScriptLexer

inductive ConfigField where
  | dialect
  | extension
  deriving DecidableEq, Repr

def ConfigField.name : ConfigField → Text
  | dialect => "database_language".toList
  | extension => "script_extension".toList

inductive ConfigError where
  /-- The file cannot be opened; `missing` if nothing exists at the path. -/
  | notOpened (path : Path) (cause : Text) (missing : Bool)
  /-- The file does not hold a configuration. -/
  | json (problem : Json.Problem)
  /-- A setting has a value that cannot work. -/
  | invalid (field : ConfigField) (reason : Text)
  deriving DecidableEq, Repr

namespace ConfigError

/-- What the user is told; how a file fails to be JSON is told by the category of the problem. -/
def message? : ConfigError → Option Text
  | notOpened path cause _ =>
    some ("Failed to open config file ".toList ++ path.text ++ ": ".toList ++ cause)
  | json _ => none
  | invalid field reason =>
    some ("Invalid config value for ".toList ++ field.name ++ ": ".toList ++ reason)

end ConfigError

/-- The settings of a project. -/
structure Config where
  /-- The dialect whose variants of a file are preferred. -/
  dialect : Text
  /-- The extension of scripts, without the dot. -/
  extension : Text
  deriving DecidableEq, Repr

namespace Config

/-- The settings of a project that says nothing. -/
def standard : Config := ⟨"MsSql".toList, "dsl".toList⟩

instance : Inhabited Config := ⟨standard⟩

/-- Whether a character separates the pieces of paths on some host. -/
def isSeparator (c : Char) : Bool := c == '/' || c == '\\'

/-- Finds the first setting that cannot work. -/
def validate (c : Config) : Except ConfigError Unit :=
  if c.dialect.isBlank then .error (.invalid .dialect "must not be empty".toList)
  else if c.dialect.any isSeparator then
    .error (.invalid .dialect ('\'' :: c.dialect ++ "' contains a path separator".toList))
  else if c.extension.isBlank then .error (.invalid .extension "must not be empty".toList)
  else .ok ()

/-- Whether every setting can work. -/
def IsValid (c : Config) : Prop :=
  c.dialect.isBlank = false ∧ c.dialect.any isSeparator = false ∧ c.extension.isBlank = false

theorem validate_eq_ok_iff {c : Config} : c.validate = .ok () ↔ c.IsValid := by
  unfold validate IsValid
  cases c.dialect.isBlank <;> cases c.dialect.any isSeparator <;> cases c.extension.isBlank <;>
    simp

/-- The dialect of a configuration that can work stays within one piece of a path. -/
theorem IsValid.slash_notMem {c : Config} (hc : c.IsValid) : '/' ∉ c.dialect := by
  intro hslash
  have hseparator : c.dialect.any isSeparator = true := List.any_eq_true.2 ⟨'/', hslash, rfl⟩
  rw [hc.2.1] at hseparator
  cases hseparator

/-- The configuration as JSON, without blanks. -/
def serialize (c : Config) : Text :=
  '\x7b' :: Json.quote ConfigField.dialect.name ++ ':' :: Json.quote c.dialect ++
    ',' :: Json.quote ConfigField.extension.name ++ ':' :: Json.quote c.extension ++ ['\x7d']

end Config

end ScriptLexer
