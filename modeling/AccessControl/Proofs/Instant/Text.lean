import AccessControl.Instant.Reader
import AccessControl.Instant.Text
import AccessControl.Proofs.Text.Digits

namespace AccessControl

open Text

namespace Text

theorem isBlank_of_isDigit {c : Char} (digit : isDigit c) : isBlank c = false := by
  obtain ⟨low, high⟩ := isDigit_iff.mp digit
  simp [isBlank]
  omega

theorem dropBlanks_solid {c : Char} (solid : isBlank c = false) (cs : List Char) :
    dropBlanks (c :: cs) = c :: cs :=
  Stops.dropWhile (.cons solid cs)

theorem dropBlanks_digits {digits : List Char} (all : ∀ c ∈ digits, isDigit c) (some : digits ≠ [])
    (rest : List Char) : dropBlanks (digits ++ rest) = digits ++ rest := by
  obtain ⟨c, cs, rfl⟩ := List.exists_cons_of_ne_nil some
  exact dropBlanks_solid (isBlank_of_isDigit (all c List.mem_cons_self)) _

theorem dropBlanks_padded (width n : Nat) (rest : List Char) :
    dropBlanks (padded width n ++ rest) = padded width n ++ rest :=
  dropBlanks_digits (fun _ => isDigit_of_mem_padded) (padded_ne_nil width n) rest

end Text

namespace Instant

theorem readField_padded {n : Nat} (fits : n < 100) (rest : List Char) :
    readField (padded 2 n ++ rest) = some (n, rest) := by
  rw [readField, dropBlanks_padded]
  exact number_padded (by omega) fits (by omega) rest

theorem readNanos_padded {width n nano : Nat} (positive : 0 < width) (most : width ≤ 9)
    (fits : n < Nat.pow 10 width)
    (whole : n * Nat.pow 10 (9 - width) = nano) {rest : List Char} (stops : Stops isDigit rest) :
    readNanos ('.' :: padded width n ++ rest) = some (nano, rest) := by
  have length := length_padded positive fits
  have behind : Stops isDigit (rest.take (9 - width)) := stops.take _
  have run : ((padded width n ++ rest).take 9).takeWhile isDigit = padded width n := by
    rw [List.take_append, List.take_of_length_le (by omega), length,
      List.takeWhile_append_of_pos fun _ => isDigit_of_mem_padded, behind.takeWhile, List.append_nil]
  simp [readNanos, run, padded_ne_nil, valueOf_padded, length, stops.dropWhile]
  exact whole

theorem readNanos_fractionText {nano : Nat} (fits : nano < 1000000000) :
    readNanos (fractionText nano ++ ['Z']) = some (nano, ['Z']) := by
  have stops : Stops isDigit ['Z'] := .cons rfl []
  unfold fractionText
  split
  · next zero =>
    rw [zero]
    rfl
  split
  · have fits : nano / 1000000 < 1000 := by omega
    have whole : nano / 1000000 * 1000000 = nano := by omega
    exact readNanos_padded (by omega) (by omega) fits whole stops
  split
  · have fits : nano / 1000 < 1000000 := by omega
    have whole : nano / 1000 * 1000 = nano := by omega
    exact readNanos_padded (by omega) (by omega) fits whole stops
  · exact readNanos_padded (by omega) (by omega) fits (Nat.mul_one nano) stops

theorem readYear_yearText (year : Int) (rest : List Char) :
    readYear (yearText year ++ '-' :: rest) = some (year, '-' :: rest) := by
  have stops : Stops isDigit ('-' :: rest) := .cons rfl rest
  have signed : natural (padded 4 year.natAbs ++ '-' :: rest) = some (year.natAbs, '-' :: rest) := by
    rw [natural_digits (fun _ => isDigit_of_mem_padded) (padded_ne_nil 4 _) stops, valueOf_padded]
  unfold yearText
  split
  · next short =>
    have fits : year.natAbs < 10000 := by omega
    have unsigned := @number_padded 1 4 year.natAbs (by omega) fits (by omega) ('-' :: rest)
    have head {c : Char} {cs : List Char} (head : padded 4 year.natAbs ++ '-' :: rest = c :: cs) :
        isDigit c :=
      isDigit_head (fun _ => isDigit_of_mem_padded) (padded_ne_nil 4 _) head
    rw [readYear, dropBlanks_padded]
    split
    · next minus => exact absurd (head minus) (by decide)
    · next plus => exact absurd (head plus) (by decide)
    · simp only [unsigned, Option.map_some, Int.natAbs_of_nonneg short.1]
  · next long =>
    split
    · next positive =>
      rw [List.cons_append, readYear, dropBlanks_solid rfl]
      simp only [signed, Option.map_some, Int.natAbs_of_nonneg positive]
    · next negative =>
      have value : -(year.natAbs : Int) = year := by omega
      rw [List.cons_append, readYear, dropBlanks_solid rfl]
      simp only [signed, Option.map_some, value]

theorem ofFields?_eq (t : Instant) :
    ofFields? t.year t.month t.day t.hour t.minute t.second t.nano = some t := by
  rw [ofFields?, dif_pos t.valid]

theorem atOffset_zero (t : Instant) : t.atOffset 0 = some t := by
  have hours := t.valid.hour_lt
  have minutes := t.valid.minute_lt
  have same := t.ofFields?_eq
  rw [atOffset, if_neg (by omega), if_pos (by rw [minutesPerDay]; omega)]
  have hour : ((t.hour * 60 + t.minute - 0 : Int) / 60).toNat = t.hour := by omega
  have minute : ((t.hour * 60 + t.minute - 0 : Int) % 60).toNat = t.minute := by omega
  simp only [hour, minute, same]

theorem readMark_self {c : Char} (solid : isBlank c = false) (rest : List Char) :
    readMark c (c :: rest) = some rest := by
  rw [readMark, dropBlanks_solid solid, expect, if_pos rfl]

theorem day_lt (t : Instant) : t.day < 100 := by
  have inMonth := t.valid.day_range.2
  have most : daysIn t.year t.month ≤ 31 := by
    unfold daysIn
    split
    · split <;> omega
    · split <;> omega
  omega

theorem toList_documentText (t : Instant) :
    t.documentText.toList = yearText t.year ++ '-' :: (padded 2 t.month ++ '-' :: (padded 2 t.day ++
      'T' :: (padded 2 t.hour ++ ':' :: (padded 2 t.minute ++ ':' :: (padded 2 t.second ++
        (fractionText t.nano ++ ['Z'])))))) := by
  simp [documentText, fieldsText]

theorem readRelaxed_documentText (t : Instant) : readRelaxed t.documentText = some t := by
  have valid := t.valid
  have month := readField_padded (Nat.lt_of_le_of_lt valid.month_range.2 (by omega))
  have day := readField_padded t.day_lt
  have hour := readField_padded (Nat.lt_trans valid.hour_lt (by omega))
  have minute := readField_padded (Nat.lt_trans valid.minute_lt (by omega))
  have second := readField_padded (Nat.lt_of_le_of_lt valid.second_le (by omega))
  have nano := readNanos_fractionText valid.nano_lt
  have zone : readZone (dropBlanks ['Z']) = some (0, []) := rfl
  have dash := @readMark_self '-' rfl
  have colon := @readMark_self ':' rfl
  rw [readRelaxed, toList_documentText]
  refine Option.bind_eq_some_iff.mpr ⟨_, readYear_yearText t.year _, ?_⟩
  refine Option.bind_eq_some_iff.mpr ⟨_, dash _, Option.bind_eq_some_iff.mpr ⟨_, month _, ?_⟩⟩
  refine Option.bind_eq_some_iff.mpr ⟨_, dash _, Option.bind_eq_some_iff.mpr ⟨_, day _, ?_⟩⟩
  refine Option.bind_eq_some_iff.mpr ⟨_, rfl, Option.bind_eq_some_iff.mpr ⟨_, hour _, ?_⟩⟩
  refine Option.bind_eq_some_iff.mpr ⟨_, colon _, Option.bind_eq_some_iff.mpr ⟨_, minute _, ?_⟩⟩
  refine Option.bind_eq_some_iff.mpr ⟨_, colon _, Option.bind_eq_some_iff.mpr ⟨_, second _, ?_⟩⟩
  refine Option.bind_eq_some_iff.mpr ⟨_, nano, Option.bind_eq_some_iff.mpr ⟨_, zone, ?_⟩⟩
  exact Option.bind_eq_some_iff.mpr ⟨t, t.ofFields?_eq, (if_pos rfl).trans t.atOffset_zero⟩

end Instant

end AccessControl
