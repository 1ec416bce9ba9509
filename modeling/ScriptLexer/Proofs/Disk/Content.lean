import ScriptLexer.Proofs.Disk.Locate
import ScriptLexer.Proofs.Text.Utf8

/-!
# What a file on a disk is read as

A file that a path leads to is read as the text whose encoding it holds, less one byte-order mark at
the start, and refused if it holds no encoding (`read_eq_error_iff`). So each text has two forms on a
disk, its own bytes and those behind a mark. A text that starts with a mark has the second form only,
since in the first one its mark would be dropped (`eq_withoutMark_iff`).

Main result: `read_decodes`. What bytes that are no encoding look like is `Utf8.IsDefect`.
-/

namespace ScriptLexer.Disk

variable {d : Disk} {p : Path} {bytes : List UInt8} {text : Text}

/-- The bytes are the encoding of the text, which has no mark in front, or that of the text behind a
mark. -/
def Stores (bytes : List UInt8) (t : Text) : Prop :=
  (bytes = Utf8.encode t ∧ t.head? ≠ some '\ufeff') ∨ bytes = Utf8.encode ('\ufeff' :: t)

theorem eq_withoutMark_iff {t : Text} :
    text = withoutMark t ↔ (t = text ∧ text.head? ≠ some '\ufeff') ∨ t = '\ufeff' :: text := by
  by_cases hmark : t.head? = some '\ufeff'
  · obtain ⟨u, rfl⟩ := List.head?_eq_some_iff.1 hmark
    show text = u ↔ _
    constructor
    · rintro rfl
      exact .inr rfl
    · rintro (⟨rfl, hne⟩ | h)
      · exact absurd hmark hne
      · exact (List.cons.inj h).2.symm
  · rw [withoutMark_eq hmark]
    constructor
    · rintro rfl
      exact .inl ⟨rfl, hmark⟩
    · rintro (⟨rfl, -⟩ | rfl)
      · rfl
      · exact absurd rfl hmark

theorem hasText_iff_of_find (h : d.find p = .ok (.file bytes)) {t : Text} :
    d.HasText p t ↔ bytes = Utf8.encode t := by
  rw [HasText, h, Except.ok.injEq, Node.file.injEq]

/-- **A file is read as the text that it stores.** -/
theorem read_eq_ok_iff_of_find (h : d.find p = .ok (.file bytes)) :
    d.fileSystem.read p = .ok text ↔ Stores bytes text := by
  simp only [read_eq_ok_iff, hasText_iff_of_find h, eq_withoutMark_iff]
  constructor
  · rintro ⟨t, hbytes, ⟨rfl, hmark⟩ | rfl⟩
    · exact .inl ⟨hbytes, hmark⟩
    · exact .inr hbytes
  · rintro (⟨hbytes, hmark⟩ | hbytes)
    · exact ⟨text, hbytes, .inl ⟨rfl, hmark⟩⟩
    · exact ⟨'\ufeff' :: text, hbytes, .inr rfl⟩

/-- **A file is refused exactly if it encodes no text**, and never as missing. -/
theorem read_eq_error_iff_of_find (h : d.find p = .ok (.file bytes)) {e : ReadError} :
    d.fileSystem.read p = .error e ↔
      e = .failed p DiskError.notUtf8.message ∧ Utf8.decode? bytes = none := by
  have hbytes : d.readBytes p = .ok bytes := by rw [readBytes, h]
  cases hdecode : Utf8.decode? bytes <;>
    simp [fileSystem, readText, hbytes, hdecode, eq_comm]

/-- **Reading a file decodes UTF-8 and drops one byte-order mark.** Whatever the file at a path holds:
it is read as `t` if and only if it stores `t`, and it stores one text at most. A file that holds the
encoding of no text is refused, as an error that is not the one for missing files; behind some text it
has a stray byte, or a sequence that is broken off, too long for its code point, half of a surrogate
pair or too large. The encoding is the one of strings. -/
theorem read_decodes (h : d.find p = .ok (.file bytes)) :
    (∀ t, d.fileSystem.read p = .ok t ↔ Stores bytes t) ∧
    (∀ t u, Stores bytes t → Stores bytes u → t = u) ∧
    (∀ e, d.fileSystem.read p = .error e ↔
      e = .failed p DiskError.notUtf8.message ∧ ∀ t, bytes ≠ Utf8.encode t) ∧
    ((∀ t, bytes ≠ Utf8.encode t) ↔
      ∃ t rest, bytes = Utf8.encode t ++ rest ∧ Utf8.IsDefect rest) ∧
    (∀ t, Utf8.encode t = t.flatMap String.utf8EncodeChar) := by
  have hnone : (∀ t, bytes ≠ Utf8.encode t) ↔ Utf8.decode? bytes = none := by
    simp only [Option.eq_none_iff_forall_ne_some, ne_eq, Utf8.decode?_eq_some_iff]
  refine ⟨fun t => read_eq_ok_iff_of_find h, fun t u ht hu => ?_, fun e => ?_,
    hnone.trans Utf8.decode?_eq_none_iff, Utf8.encode_eq_flatMap⟩
  · rw [← read_eq_ok_iff_of_find h] at ht hu
    exact Except.ok.inj (ht.symm.trans hu)
  · rw [hnone, read_eq_error_iff_of_find h]

/-- Of two marks the first one is dropped. A slash in two bytes is longer than it needs to be. -/
theorem read_decodes_marked :
    let d : Disk :=
      { nodes := [([['m']], .file [0xEF, 0xBB, 0xBF, 0xEF, 0xBB, 0xBF, 0x61]),
          ([['o']], .file [0x61, 0xC0, 0xAF])]
        working := [] }
    d.find ⟨['m']⟩ = .ok (.file [0xEF, 0xBB, 0xBF, 0xEF, 0xBB, 0xBF, 0x61]) ∧
      d.fileSystem.read ⟨['m']⟩ = .ok ['\ufeff', 'a'] ∧
      d.find ⟨['o']⟩ = .ok (.file [0x61, 0xC0, 0xAF]) ∧
      d.fileSystem.read ⟨['o']⟩ = .error (.failed ⟨['o']⟩ DiskError.notUtf8.message) := by
  intro d
  have hmarked : d.find ⟨['m']⟩ = .ok (.file [0xEF, 0xBB, 0xBF, 0xEF, 0xBB, 0xBF, 0x61]) := by
    decide
  have hoverlong : d.find ⟨['o']⟩ = .ok (.file [0x61, 0xC0, 0xAF]) := by decide
  obtain ⟨hread, -⟩ := read_decodes hmarked
  obtain ⟨-, -, hrefused, hdefect, -⟩ := read_decodes hoverlong
  let slash : Utf8.Pattern := ⟨1, 0, [0x2F], .inl ⟨rfl, by decide⟩, by decide, by decide⟩
  refine ⟨hmarked, (hread _).2 (.inr (by decide)), hoverlong,
    (hrefused _).2 ⟨rfl, hdefect.2 ?_⟩⟩
  exact ⟨['a'], slash.bytes ++ [], by decide, .overlong slash rfl (by decide)⟩

end ScriptLexer.Disk
