import Tapes.Js.NumberText

namespace Tapes.Js

/-! `Date.prototype.toISOString`, in the proleptic Gregorian calendar. -/

/-- Year, month and day of a day count since the epoch. Years run from March here, and
eras of 400 years are all alike. -/
def civil (day : Int) : Int × Nat × Nat :=
  let shifted := day + 719468
  let era := shifted / 146097
  let dayOfEra := (shifted % 146097).toNat
  let yearOfEra :=
    (dayOfEra - dayOfEra / 1460 + dayOfEra / 36524 - dayOfEra / 146096) / 365
  let dayOfYear := dayOfEra - (365 * yearOfEra + yearOfEra / 4 - yearOfEra / 100)
  let month := (5 * dayOfYear + 2) / 153
  let dayOfMonth := dayOfYear - (153 * month + 2) / 5 + 1
  let year := yearOfEra + era * 400
  if month < 10 then (year, month + 3, dayOfMonth) else (year + 1, month - 9, dayOfMonth)

/-- The digits of a number, filled with zeros to the width. -/
def padded (width value : Nat) : JsString :=
  let digits := decimalDigits value
  digitText (List.replicate (width - digits.length) 0 ++ digits)

def yearText (year : Int) : JsString :=
  if 0 ≤ year ∧ year ≤ 9999 then padded 4 year.toNat
  else (if 0 ≤ year then [0x2B] else [0x2D]) ++ padded 6 year.natAbs

def toISOString (timestampMs : Int) : JsString :=
  let (year, month, day) := civil (timestampMs / 86400000)
  let ms := (timestampMs % 86400000).toNat
  yearText year ++ [0x2D] ++ padded 2 month ++ [0x2D] ++ padded 2 day ++ [0x54] ++
    padded 2 (ms / 3600000) ++ [0x3A] ++ padded 2 (ms / 60000 % 60) ++ [0x3A] ++
    padded 2 (ms / 1000 % 60) ++ [0x2E] ++ padded 3 (ms % 1000) ++ [0x5A]

/-- Digits and ASCII punctuation only. -/
def Ascii (text : JsString) : Prop := ∀ unit ∈ text, unit < 0x80

theorem Ascii.append {first second : JsString} (left : Ascii first) (right : Ascii second) :
    Ascii (first ++ second) := by
  intro unit member
  rcases List.mem_append.mp member with member | member
  · exact left unit member
  · exact right unit member

theorem ascii_digitText {digits : List Nat} (small : IsDigits digits) : Ascii (digitText digits) := by
  intro unit member
  obtain ⟨digit, inside, rfl⟩ := List.mem_map.mp member
  have below := small digit inside
  interval_cases digit <;> decide

theorem ascii_padded (width value : Nat) : Ascii (padded width value) :=
  ascii_digitText ((isDigits_zeros _).append (isDigits_decimalDigits value))

theorem ascii_singleton {unit : UInt16} (small : unit < 0x80) : Ascii [unit] := by
  intro other member
  rwa [List.mem_singleton.mp member]

theorem ascii_yearText (year : Int) : Ascii (yearText year) := by
  have sign : Ascii (if 0 ≤ year then [0x2B] else [0x2D]) := by
    split <;> exact ascii_singleton (by decide)
  unfold yearText
  split
  · exact ascii_padded 4 _
  · exact sign.append (ascii_padded 6 _)

theorem ascii_toISOString (timestampMs : Int) : Ascii (toISOString timestampMs) := by
  have dash : Ascii [0x2D] := ascii_singleton (by decide)
  have colon : Ascii [0x3A] := ascii_singleton (by decide)
  have date := ((((ascii_yearText (civil (timestampMs / 86400000)).1).append dash).append
    (ascii_padded 2 (civil (timestampMs / 86400000)).2.1)).append dash).append
    (ascii_padded 2 (civil (timestampMs / 86400000)).2.2)
  have time := fun ms : Nat => (((((ascii_padded 2 (ms / 3600000)).append colon).append
    (ascii_padded 2 (ms / 60000 % 60))).append colon).append (ascii_padded 2 (ms / 1000 % 60)))
  have whole := (((date.append (ascii_singleton (by decide : (0x54 : UInt16) < 0x80))).append
    (time (timestampMs % 86400000).toNat)).append (ascii_singleton
    (by decide : (0x2E : UInt16) < 0x80))).append ((ascii_padded 3
    ((timestampMs % 86400000).toNat % 1000)).append (ascii_singleton
    (by decide : (0x5A : UInt16) < 0x80)))
  simpa [toISOString] using whole

example : toISOString 951827696789 = js "2000-02-29T12:34:56.789Z" := by decide +kernel

end Tapes.Js
