import AccessControl.Text.Blank
import AccessControl.Text.Digits

namespace AccessControl.Text

/-- No character that satisfies `p` stands in front. -/
def Stops (p : Char → Bool) (cs : List Char) : Prop := ∀ c ∈ cs.head?, p c = false

theorem Stops.nil (p : Char → Bool) : Stops p [] := fun _ member => nomatch member

theorem Stops.cons {p : Char → Bool} {c : Char} (out : p c = false) (cs : List Char) : Stops p (c :: cs) :=
  fun _ member => Option.some.inj member ▸ out

theorem Stops.takeWhile {p : Char → Bool} {cs : List Char} (stops : Stops p cs) : cs.takeWhile p = [] := by
  cases cs with
  | nil => rfl
  | cons c cs => rw [List.takeWhile_cons_of_neg (by simp [stops c rfl])]

theorem Stops.dropWhile {p : Char → Bool} {cs : List Char} (stops : Stops p cs) : cs.dropWhile p = cs := by
  cases cs with
  | nil => rfl
  | cons c cs => rw [List.dropWhile_cons_of_neg (by simp [stops c rfl])]

theorem Stops.take {p : Char → Bool} {cs : List Char} (stops : Stops p cs) (n : Nat) :
    Stops p (cs.take n) := by
  cases cs with
  | nil =>
    rw [List.take_nil]
    exact .nil p
  | cons c cs =>
    cases n with
    | zero => exact .nil p
    | succ n => exact .cons (stops c rfl) _

theorem takeWhile_append_of_stops {p : Char → Bool} (cs : List Char) {rest : List Char}
    (stops : Stops p rest) :
    (cs ++ rest).takeWhile p = cs.takeWhile p := by
  induction cs with
  | nil => exact stops.takeWhile
  | cons c cs ih =>
    rw [List.cons_append, List.takeWhile_cons, List.takeWhile_cons, ih]

theorem isDigit_iff {c : Char} : isDigit c ↔ 48 ≤ c.toNat ∧ c.toNat ≤ 57 := by
  simp [isDigit, Char.le_def, UInt32.le_iff_toNat_le]

theorem valueOf_toDigits (n : Nat) : valueOf (Nat.toDigits 10 n) = n :=
  Nat.ofDigitChars_toDigits (by omega) (by omega)

theorem isDigit_of_mem_toDigits {n : Nat} {c : Char} (member : c ∈ Nat.toDigits 10 n) : isDigit c := by
  have digit := Nat.isDigit_of_mem_toDigits (by omega) (by omega) member
  exact digit

theorem isDigit_of_mem_padded {width n : Nat} {c : Char} (member : c ∈ padded width n) : isDigit c := by
  rcases List.mem_append.mp member with zero | digit
  · rw [List.eq_of_mem_replicate zero]
    rfl
  · exact isDigit_of_mem_toDigits digit

theorem valueOf_padded (width n : Nat) : valueOf (padded width n) = n := by
  have zeros (k : Nat) : Nat.ofDigitChars 10 (List.replicate k '0') 0 = 0 := by
    rw [Nat.ofDigitChars_replicate_zero, Nat.mul_zero]
  have appended := @Nat.ofDigitChars_append 10 (List.replicate (width - (Nat.toDigits 10 n).length) '0')
    (Nat.toDigits 10 n) 0
  rw [zeros] at appended
  exact appended.trans (valueOf_toDigits n)

theorem length_padded {width n : Nat} (positive : 0 < width) (fits : n < Nat.pow 10 width) :
    (padded width n).length = width := by
  have short := (Nat.length_toDigits_le_iff (by omega) positive).mpr fits
  rw [padded, List.length_append, List.length_replicate]
  omega

theorem padded_ne_nil (width n : Nat) : padded width n ≠ [] := by
  simp [padded, Nat.toDigits_ne_nil]

theorem isDigit_head {digits rest cs : List Char} {c : Char} (all : ∀ c ∈ digits, isDigit c)
    (some : digits ≠ [])
    (head : digits ++ rest = c :: cs) : isDigit c := by
  obtain ⟨d, ds, rfl⟩ := List.exists_cons_of_ne_nil some
  obtain ⟨rfl, -⟩ := List.cons.inj head
  exact all d List.mem_cons_self

theorem number_digits {least most : Nat} {digits rest : List Char} (all : ∀ c ∈ digits, isDigit c)
    (enough : least ≤ digits.length) (fits : digits.length ≤ most)
    (ends : digits.length = most ∨ Stops isDigit rest) :
    number least most (digits ++ rest) = some (valueOf digits, rest) := by
  have run : ((digits ++ rest).take most).takeWhile isDigit = digits := by
    have behind : Stops isDigit (rest.take (most - digits.length)) := by
      rcases ends with rfl | stops
      · rw [Nat.sub_self, List.take_zero]
        exact .nil _
      · exact stops.take _
    rw [List.take_append, List.take_of_length_le fits, List.takeWhile_append_of_pos all, behind.takeWhile,
      List.append_nil]
  simp only [number, run, List.drop_left, if_neg (Nat.not_lt.mpr enough)]

theorem number_padded {least width n : Nat} (positive : 0 < width) (fits : n < Nat.pow 10 width)
    (enough : least ≤ width)
    (rest : List Char) : number least width (padded width n ++ rest) = some (n, rest) := by
  have length := length_padded positive fits
  rw [number_digits (fun _ => isDigit_of_mem_padded) (by omega) (by omega) (.inl length), valueOf_padded]

theorem natural_digits {digits rest : List Char} (all : ∀ c ∈ digits, isDigit c) (some : digits ≠ [])
    (stops : Stops isDigit rest) : natural (digits ++ rest) = .some (valueOf digits, rest) :=
  number_digits all (List.length_pos_iff.mpr some) (by simp) (.inr stops)

end AccessControl.Text
