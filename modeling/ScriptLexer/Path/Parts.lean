import ScriptLexer.Path.Basic

/-!
# Parts of a path

The file name, the folder and the extension of a path, and a path below another.

* `fileName?` is the last component, if that is a name.
* `parent?` is the text before the last component, without the separators and `.` pieces that
  trail there. A path without components has none, and neither has a root.
* `join` puts a relative path below a folder; an absolute path replaces the folder.
* `extension?` is what follows the last dot of the file name, unless that dot comes first.
-/

namespace ScriptLexer

/-- The text before the last dot and the text after it. -/
def splitLastDot : Text → Option (Text × Text)
  | [] => none
  | c :: rest =>
    match splitLastDot rest with
    | some (stem, extension) => some (c :: stem, extension)
    | none => if c = '.' then some ([], rest) else none

theorem splitLastDot_eq_none {t : Text} : splitLastDot t = none ↔ '.' ∉ t := by
  induction t with
  | nil => simp [splitLastDot]
  | cons c t ih =>
    simp only [splitLastDot, List.mem_cons, not_or]
    split
    · next h => simp [h] at ih; simp [ih]
    · next h =>
      simp only [h, true_iff] at ih
      by_cases hc : c = '.'
      · simp [hc]
      · simp [hc, ih, Ne.symm hc]

theorem eq_of_splitLastDot {t stem extension : Text}
    (h : splitLastDot t = some (stem, extension)) :
    t = stem ++ '.' :: extension ∧ '.' ∉ extension := by
  induction t generalizing stem with
  | nil => simp [splitLastDot] at h
  | cons c t ih =>
    simp only [splitLastDot] at h
    split at h
    · next s e hs =>
      simp only [Option.some.injEq, Prod.mk.injEq] at h
      obtain ⟨rfl, rfl⟩ := h
      simpa using ih hs
    · next hn =>
      split at h
      · next hc =>
        simp only [Option.some.injEq, Prod.mk.injEq] at h
        obtain ⟨rfl, rfl⟩ := h
        exact ⟨by simp [hc], splitLastDot_eq_none.1 hn⟩
      · simp at h

namespace Path

/-- The last component, if it is a name. -/
def fileName? (p : Path) : Option Text :=
  match p.components.getLast? with
  | some (.name n) => some n
  | _ => none

/-- The path without its last component. -/
def parent? (p : Path) : Option Path :=
  match p.body.reverse.dropWhile (component? · |>.isNone) with
  | [] => if p.anchor = some .here then some ⟨[]⟩ else none
  | _ :: before =>
    some ⟨anchoredText p.anchor (before.dropWhile (component? · |>.isNone)).reverse⟩

/-- The folder that holds the path; the empty path where there is none. -/
def folder (p : Path) : Path := p.parent?.getD ⟨[]⟩

def isAbsolute (p : Path) : Bool := p.text.head? == some '/'

/-- The path `q` as seen from the folder `p`. -/
def join (p q : Path) : Path :=
  if q.isAbsolute then q
  else if p.text.isEmpty || p.text.getLast? == some '/' then ⟨p.text ++ q.text⟩
  else ⟨p.text ++ '/' :: q.text⟩

def extension? (p : Path) : Option Text :=
  match p.fileName?.bind splitLastDot with
  | some ([], _) => none
  | some (_, extension) => some extension
  | none => none

/-- Whether the extension is the given one, up to the case of ASCII letters. -/
def hasExtension (p : Path) (extension : Text) : Bool :=
  p.extension?.any (Text.sameIgnoringCase extension)

end Path

end ScriptLexer
