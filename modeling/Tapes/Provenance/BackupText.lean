import Tapes.Provenance.BackupFormat

namespace Tapes.Provenance

open Tapes.Js

/-! The text and the file around a record, with white space around those. -/

variable {backup : PersonKeyBackup} {before text after : JsString}

/-- A text of white space as `trim` removes it. -/
def White (text : JsString) : Prop := ∀ unit ∈ text, isWhiteSpace unit = true

/-- Trimming stops at the first and the last unit that is no white space. -/
theorem trim_around (white : White before) (white_after : White after) (nonempty : text ≠ [])
    (first : ∀ unit ∈ text.head?, isWhiteSpace unit = false)
    (last : isWhiteSpace (text.getLast nonempty) = false) :
    trim (before ++ text ++ after) = text := by
  have front : (before ++ (text ++ after)).dropWhile isWhiteSpace = text ++ after := by
    rw [List.dropWhile_append_of_pos white]
    cases text with
    | nil => exact absurd rfl nonempty
    | cons unit rest =>
        have other := first unit rfl
        rw [List.cons_append, List.dropWhile_cons, if_neg (by simp [other])]
  have back : (after.reverse ++ text.reverse).dropWhile isWhiteSpace = text.reverse := by
    rw [List.dropWhile_append_of_pos fun unit member => white_after unit (List.mem_reverse.mp member)]
    have kept : text.rdropWhile isWhiteSpace = text :=
      List.rdropWhile_eq_self_iff.mpr fun _ => by simp [last]
    rw [List.rdropWhile] at kept
    rw [← List.reverse_reverse (List.dropWhile isWhiteSpace text.reverse), kept]
  rw [trim, List.append_assoc, front, List.rdropWhile, List.reverse_append, back,
    List.reverse_reverse]

theorem trim_of_not_white (nonempty : text ≠ []) (solid : ∀ unit ∈ text, isWhiteSpace unit = false) :
    trim text = text := by
  have none : White [] := fun _ member => nomatch member
  have around := trim_around none none nonempty (fun unit first => solid unit (List.mem_of_head? first))
    (solid _ (List.getLast_mem nonempty))
  rwa [List.nil_append, List.append_nil] at around

/-! ## The text form -/

theorem toBase64Url_not_white (bytes : Bytes) :
    ∀ unit ∈ toBase64Url bytes, isWhiteSpace unit = false := by
  have all : ∀ unit ∈ base64UrlAlphabet, isWhiteSpace unit = false := by decide
  exact fun unit member => all unit (inAlphabet_toBase64Url bytes unit member)

theorem backupToText_not_white (backup : PersonKeyBackup) :
    ∀ unit ∈ backupToText backup, isWhiteSpace unit = false := by
  intro unit member
  cases List.mem_append.mp member with
  | inl inside =>
      have prefix_units : backupTextPrefix.all (fun unit => !isWhiteSpace unit) = true := by decide
      have other := List.all_eq_true.mp prefix_units unit inside
      simpa using other
  | inr inside => exact toBase64Url_not_white _ unit inside

theorem trim_backupToText (white : White before) (white_after : White after) :
    trim (before ++ backupToText backup ++ after) = backupToText backup := by
  have nonempty : backupToText backup ≠ [] := List.cons_ne_nil _ _
  apply trim_around white white_after nonempty
  · intro unit head
    exact backupToText_not_white backup unit (List.mem_of_mem_head? head)
  · exact backupToText_not_white backup _ (List.getLast_mem nonempty)

theorem parseCompact_backupToText (wellFormed : backup.WellFormed) :
    parseCompact (backupToText backup) = .ok backup := by
  have whole : backupTextPrefix <+: backupToText backup := List.prefix_append _ _
  have start : js "TPK" <+: backupToText backup :=
    List.IsPrefix.trans (show js "TPK" <+: backupTextPrefix by decide) whole
  have rest : (backupToText backup).drop backupTextPrefix.length =
      toBase64Url (encodeBackup backup) := List.drop_left
  rw [parseCompact, if_neg (not_not_intro start), if_neg (not_not_intro whole), rest,
    fromBase64Url_toBase64Url]
  exact decodeBackup_encodeBackup wellFormed

theorem parseBackupText_text (wellFormed : backup.WellFormed) (white : White before)
    (white_after : White after) :
    parseBackupText (before ++ backupToText backup ++ after) = .ok backup := by
  have brace : ¬ js "\x7b" <+: backupToText backup := by
    rintro ⟨rest, same⟩
    have heads := congrArg List.head? same
    simp only [backupToText] at heads
    exact absurd (Option.some.inj heads) (by decide)
  rw [parseBackupText, trim_backupToText white white_after, if_pos brace]
  exact parseCompact_backupToText wellFormed

/-! ## The file form -/

theorem parseBackupText_file (wellFormed : backup.WellFormed) (createdAt : JsString)
    (white : White before) (white_after : White after) :
    parseBackupText (before ++ backupToFileText backup createdAt ++ after) = .ok backup := by
  let file := backupFile backup createdAt
  have gaps : Spaces (js "  ") := List.all_eq_true.mp (by decide)
  have none : Spaces [] := by simp [Spaces]
  have read : parse (stringifyIndented (js "  ") [] (.object file)) =
      some (reread (.object file)) := by
    have around := parse_indented gaps none none (.object file)
    rwa [List.nil_append, List.append_nil] at around
  have line : White (js "\n" ++ after) := by
    intro unit member
    cases List.mem_append.mp member with
    | inl inside =>
        have newline : unit = 0x0A := List.mem_singleton.mp inside
        rw [newline]
        decide
    | inr inside => exact white_after unit inside
  have nonempty : stringifyIndented (js "  ") [] (.object file) ≠ [] := List.cons_ne_nil _ _
  have trimmed : trim (before ++ backupToFileText backup createdAt ++ after) =
      stringifyIndented (js "  ") [] (.object file) := by
    rw [backupToFileText, ← List.append_assoc, List.append_assoc _ (js "\n")]
    apply trim_around white line nonempty
    · intro unit head
      cases head
      decide
    · have brace : (stringifyIndented (js "  ") [] (.object file)).getLast nonempty = 0x7D := by
        simp only [stringifyIndented]
        exact List.getLast_concat
      rw [brace]
      decide
  have starts : js "\x7b" <+: stringifyIndented (js "  ") [] (.object file) := ⟨_, rfl⟩
  have distinct : (file.map Prod.fst).Nodup := by
    have names : file.map Prod.fst = [js "format", js "version", js "createdAt", js "publicKey",
      js "backup", js "help"] := rfl
    rw [names]
    decide
  have format_member : (js "format", JsValue.string backupFileFormat) ∈ file := by
    simp [file, backupFile]
  have backup_member : (js "backup", JsValue.string (backupToText backup)) ∈ file := by
    simp [file, backupFile]
  have format : (reread (.object file)).get (js "format") = .string backupFileFormat :=
    get_reread distinct format_member
  have text : (reread (.object file)).get (js "backup") = .string (backupToText backup) :=
    get_reread distinct backup_member
  rw [parseBackupText, trimmed, if_neg (not_not_intro starts), read]
  simp only [format, text, JsValue.string?, ne_eq, not_true_eq_false, if_false]
  have empty : White [] := by simp [White]
  have inner : trim (backupToText backup) = backupToText backup := by
    have around : trim ([] ++ backupToText backup ++ []) = backupToText backup :=
      trim_backupToText empty empty
    rwa [List.nil_append, List.append_nil] at around
  rw [inner]
  exact parseCompact_backupToText wellFormed

/-! ## The format as a whole -/

/-- Whatever text is read, the backup has the format's version and lengths. -/
theorem wellFormed_of_parseCompact {text : JsString} (read : parseCompact text = .ok backup) :
    backup.WellFormed := by
  unfold parseCompact at read
  split_ifs at read
  split at read
  · exact (encodeBackup_decodeBackup read).2
  · cases read

theorem wellFormed_of_parseBackupText {text : JsString}
    (read : parseBackupText text = .ok backup) : backup.WellFormed := by
  unfold parseBackupText at read
  dsimp only at read
  split at read
  · exact wellFormed_of_parseCompact read
  · split at read
    · cases read
    · split at read
      · cases read
      · split at read
        · exact wellFormed_of_parseCompact read
        · cases read

theorem encodeHeader_injective {left right : BackupHeader} (wellFormed : left.WellFormed)
    (wellFormed_right : right.WellFormed) (same : encodeHeader left = encodeHeader right) :
    left = right := by
  let ciphertext : Bytes := List.replicate ciphertextLength 0
  have read := decodeBackup_encodeBackup
    (show (PersonKeyBackup.mk left ciphertext).WellFormed from ⟨wellFormed, rfl⟩)
  have read_right := decodeBackup_encodeBackup
    (show (PersonKeyBackup.mk right ciphertext).WellFormed from ⟨wellFormed_right, rfl⟩)
  have bytes : encodeBackup ⟨left, ciphertext⟩ = encodeBackup ⟨right, ciphertext⟩ := by
    rw [encodeBackup, encodeBackup, same]
  rw [bytes, read_right] at read
  injection read with backups
  exact (congrArg PersonKeyBackup.toBackupHeader backups).symm

/-- Everything a reader of old files relies on. -/
structure FormatIsSound : Prop where
  binary : ∀ backup : PersonKeyBackup, backup.WellFormed →
    decodeBackup (encodeBackup backup) = .ok backup
  text : ∀ (backup : PersonKeyBackup) before after, backup.WellFormed → White before →
    White after → parseBackupText (before ++ backupToText backup ++ after) = .ok backup
  file : ∀ (backup : PersonKeyBackup) createdAt before after, backup.WellFormed → White before →
    White after →
      parseBackupText (before ++ backupToFileText backup createdAt ++ after) = .ok backup
  oneForm : ∀ bytes backup, decodeBackup bytes = .ok backup →
    encodeBackup backup = bytes ∧ backup.WellFormed
  header : ∀ left right : BackupHeader, left.WellFormed → right.WellFormed →
    encodeHeader left = encodeHeader right → left = right
  total : ∀ bytes, (∃ backup, decodeBackup bytes = .ok backup) ∨
    ∃ problem, decodeBackup bytes = .error problem

theorem backup_format_is_sound : FormatIsSound where
  binary _ wellFormed := decodeBackup_encodeBackup wellFormed
  text _ _ _ wellFormed white white_after := parseBackupText_text wellFormed white white_after
  file _ createdAt _ _ wellFormed white white_after :=
    parseBackupText_file wellFormed createdAt white white_after
  oneForm _ _ read := encodeBackup_decodeBackup read
  header _ _ wellFormed wellFormed_right same :=
    encodeHeader_injective wellFormed wellFormed_right same
  total bytes := by
    cases decodeBackup bytes with
    | ok backup => exact .inl ⟨backup, rfl⟩
    | error problem => exact .inr ⟨problem, rfl⟩

end Tapes.Provenance
