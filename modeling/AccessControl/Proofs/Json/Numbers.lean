import AccessControl.Json.Printer
import AccessControl.Json.Reader
import AccessControl.Proofs.Text.Digits

namespace AccessControl.Json

open Text

def extendsNumber (c : Char) : Bool := isDigit c || c == '.' || c == 'e' || c == 'E'

theorem ends_digits {cs : List Char} (ends : Stops extendsNumber cs) : Stops isDigit cs := by
  intro c head
  have out := ends c head
  simp only [extendsNumber, Bool.or_eq_false_iff] at out
  exact out.1.1.1

theorem drop_digits_append (cs rest : List Char) :
    (cs ++ rest).drop (cs.takeWhile isDigit).length = cs.drop (cs.takeWhile isDigit).length ++ rest :=
  List.drop_append_of_le_length (cs.takeWhile_prefix isDigit).length_le

theorem exists_digit {cs : List Char} (some : cs.takeWhile isDigit ≠ []) :
    ∃ c ds, cs = c :: ds ∧ isDigit c := by
  cases cs with
  | nil => exact absurd rfl some
  | cons c ds =>
    cases digit : isDigit c with
    | true => exact ⟨c, ds, rfl, digit⟩
    | false => exact absurd (List.takeWhile_cons_of_neg (by simp [digit])) some

theorem natural_head {cs left : List Char} {n : Nat} (read : natural cs = some (n, left)) :
    ∃ c ds, cs = c :: ds ∧ isDigit c := by
  apply exists_digit
  intro none
  simp [natural, number, none] at read

theorem readUnsigned_head {cs left : List Char} {negative : Bool} {j : Json}
    (read : readUnsigned negative cs = some (j, left)) : ∃ c ds, cs = c :: ds ∧ isDigit c := by
  apply exists_digit
  intro none
  simp [readUnsigned, none] at read

def startsNumber (c : Char) : Bool := c == '-' || isDigit c

theorem readNumber_head {cs left : List Char} {j : Json} (read : readNumber cs = some (j, left)) :
    ∃ c ds, cs = c :: ds ∧ startsNumber c := by
  unfold readNumber at read
  split at read
  · next cs => exact ⟨'-', cs, rfl, rfl⟩
  · obtain ⟨c, ds, rfl, digit⟩ := readUnsigned_head read
    exact ⟨c, ds, rfl, by simp [startsNumber, digit]⟩

theorem readNumber_digit {c : Char} (digit : isDigit c) (cs : List Char) :
    readNumber (c :: cs) = readUnsigned false (c :: cs) := by
  unfold readNumber
  split
  · next minus =>
    rw [(List.cons.inj minus).1] at digit
    exact absurd digit (by decide)
  · rfl

theorem natural_append {cs left rest : List Char} {n : Nat} (read : natural cs = some (n, left))
    (ends : Stops isDigit rest) : natural (cs ++ rest) = some (n, left ++ rest) := by
  simp only [natural, number, List.take_length, takeWhile_append_of_stops cs ends,
    drop_digits_append] at read ⊢
  split at read
  · cases read
  · next enough =>
    obtain ⟨rfl, rfl⟩ := Prod.mk.inj (Option.some.inj read)
    rw [if_neg enough]

theorem readFraction_ends {rest : List Char} (ends : Stops extendsNumber rest) :
    readFraction rest = some (none, rest) := by
  unfold readFraction
  split
  · next cs =>
    exact absurd (ends '.' rfl) (by decide)
  · rfl

theorem readFraction_append {cs left rest : List Char} {fraction : Option (List Char)}
    (read : readFraction cs = some (fraction, left)) (ends : Stops extendsNumber rest) :
    readFraction (cs ++ rest) = some (fraction, left ++ rest) := by
  unfold readFraction at read
  split at read
  · next cs =>
    have run : (cs ++ rest).takeWhile isDigit = cs.takeWhile isDigit :=
      takeWhile_append_of_stops cs (ends_digits ends)
    simp only [List.cons_append, readFraction, run, drop_digits_append]
    simp only at read
    split at read
    · cases read
    · next some =>
      obtain ⟨rfl, rfl⟩ := Prod.mk.inj (Option.some.inj read)
      rw [if_neg some]
  · next noPoint =>
    obtain ⟨rfl, rfl⟩ := Prod.mk.inj (Option.some.inj read)
    cases cs with
    | nil => exact readFraction_ends ends
    | cons c cs =>
      rw [List.cons_append, readFraction]
      intro cs' point
      exact noPoint cs (by rw [(List.cons.inj point).1])

theorem readExponent_append {cs left rest : List Char} {e : Int} (read : readExponent cs = some (e, left))
    (ends : Stops extendsNumber rest) : readExponent (cs ++ rest) = some (e, left ++ rest) := by
  cases cs with
  | nil =>
    obtain ⟨rfl, rfl⟩ := Prod.mk.inj (Option.some.inj read)
    cases rest with
    | nil => rfl
    | cons c cs =>
      have out := ends c rfl
      simp only [extendsNumber, Bool.or_eq_false_iff, beq_eq_false_iff_ne] at out
      simp [readExponent, out]
  | cons c cs =>
    simp only [readExponent, List.cons_append] at read ⊢
    split at read
    · next mark =>
      rw [if_pos mark]
      have digits := ends_digits ends
      split at read
      · next ds =>
        obtain ⟨⟨n, behind⟩, number, same⟩ := Option.map_eq_some_iff.mp read
        obtain ⟨rfl, rfl⟩ := Prod.mk.inj same
        simp only [List.cons_append, natural_append number digits, Option.map_some]
      · next ds =>
        obtain ⟨⟨n, behind⟩, number, same⟩ := Option.map_eq_some_iff.mp read
        obtain ⟨rfl, rfl⟩ := Prod.mk.inj same
        simp only [List.cons_append, natural_append number digits, Option.map_some]
      · next plus minus =>
        obtain ⟨⟨n, behind⟩, number, same⟩ := Option.map_eq_some_iff.mp read
        obtain ⟨rfl, rfl⟩ := Prod.mk.inj same
        have extended := natural_append number digits
        obtain ⟨d, ds, rfl, digit⟩ := natural_head number
        simp only [List.cons_append] at extended ⊢
        split
        · next head => exact absurd digit (by simp [(List.cons.inj head).1, isDigit])
        · next head => exact absurd digit (by simp [(List.cons.inj head).1, isDigit])
        · rw [extended]
          rfl
    · next other =>
      obtain ⟨rfl, rfl⟩ := Prod.mk.inj (Option.some.inj read)
      rw [if_neg other]
      rfl

theorem readUnsigned_append {cs left rest : List Char} {negative : Bool} {j : Json}
    (read : readUnsigned negative cs = some (j, left)) (ends : Stops extendsNumber rest) :
    readUnsigned negative (cs ++ rest) = some (j, left ++ rest) := by
  have run : (cs ++ rest).takeWhile isDigit = cs.takeWhile isDigit :=
    takeWhile_append_of_stops cs (ends_digits ends)
  simp only [readUnsigned, run, drop_digits_append] at read ⊢
  split at read
  · cases read
  · next digits =>
    rw [if_neg digits]
    obtain ⟨⟨fraction, behind⟩, fractional, read⟩ := Option.bind_eq_some_iff.mp read
    obtain ⟨⟨exponent, last⟩, exponential, read⟩ := Option.bind_eq_some_iff.mp read
    have fractional' := readFraction_append fractional ends
    have exponential' := readExponent_append exponential ends
    have spans : ((behind ++ rest).length == (last ++ rest).length) = (behind.length == last.length) := by
      rw [Bool.eq_iff_iff]
      simp
    simp only [Option.bind_eq_bind, fractional', Option.bind_some, exponential', spans]
    split at read
    · next whole =>
      obtain ⟨rfl, rfl⟩ := Prod.mk.inj (Option.some.inj read)
      rw [if_pos whole]
    · next whole =>
      obtain ⟨rfl, rfl⟩ := Prod.mk.inj (Option.some.inj read)
      rw [if_neg whole]

theorem readNumber_append {cs left rest : List Char} {j : Json} (read : readNumber cs = some (j, left))
    (ends : Stops extendsNumber rest) : readNumber (cs ++ rest) = some (j, left ++ rest) := by
  unfold readNumber at read
  split at read
  · exact readUnsigned_append read ends
  · obtain ⟨c, ds, rfl, digit⟩ := readUnsigned_head read
    rw [List.cons_append, readNumber_digit digit]
    exact readUnsigned_append read ends

theorem wholeDigits_fits (digits : List Char) (n : Nat)
    (fits : Nat.ofDigitChars 10 digits n < UInt64.size) :
    wholeDigits digits n false 0 = (Nat.ofDigitChars 10 digits n, 0) := by
  induction digits generalizing n with
  | nil => rfl
  | cons c cs ih =>
    rw [Nat.ofDigitChars_cons] at fits ⊢
    have begun : 10 * n + digitValue c ≤ Nat.ofDigitChars 10 cs (10 * n + digitValue c) := by
      rw [Nat.ofDigitChars_eq_ofDigitChars_zero]
      have := Nat.le_mul_of_pos_left (10 * n + digitValue c)
        (Nat.pow_pos (n := cs.length) (by omega : 0 < 10))
      omega
    have small : 10 * n + digitValue c < UInt64.size := Nat.lt_of_le_of_lt begun fits
    rw [wholeDigits, if_neg (by simpa using small)]
    exact ih _ fits

theorem eq_zero_of_head (n : Nat) (head : (Nat.toDigits 10 n).head? = some '0') : n = 0 := by
  induction n using Nat.strongRecOn with
  | ind n ih =>
    rw [Nat.toDigits_eq_if (by omega)] at head
    split at head
    · next small =>
      have digits : ∀ d : Fin 10, d.val.digitChar = '0' → d.val = 0 := by decide
      exact digits ⟨n, small⟩ (Option.some.inj head)
    · rw [List.head?_append, List.head?_eq_some_head Nat.toDigits_ne_nil, Option.some_or,
        ← List.head?_eq_some_head] at head
      have := ih (n / 10) (by omega) head
      omega

theorem no_leading_zero (n : Nat) :
    ((Nat.toDigits 10 n).head? == some '0' && decide (1 < (Nat.toDigits 10 n).length)) = false := by
  cases head : (Nat.toDigits 10 n).head? == some '0' with
  | false => rfl
  | true =>
    rw [eq_zero_of_head n (beq_iff_eq.mp head)]
    rfl

theorem readUnsigned_toDigits {n : Nat} (fits : n < UInt64.size) (negative : Bool) :
    readUnsigned negative (Nat.toDigits 10 n) = some (wholeNumber negative n 0, []) := by
  have all : ∀ c ∈ Nat.toDigits 10 n, isDigit c := fun c => isDigit_of_mem_toDigits
  have run : (Nat.toDigits 10 n).takeWhile isDigit = Nat.toDigits 10 n := by
    simpa using @List.takeWhile_append_of_pos Char isDigit _ [] all
  have value : wholeDigits (Nat.toDigits 10 n) 0 false 0 = (n, 0) := by
    have same := Nat.ofDigitChars_toDigits (b := 10) (n := n) (by omega) (by omega)
    rw [wholeDigits_fits _ 0 (by rw [same]; exact fits), same]
  have some : (Nat.toDigits 10 n).isEmpty = false := by simp [Nat.toDigits_ne_nil]
  rw [readUnsigned]
  simp only [run, no_leading_zero, some, Bool.or_self, Bool.false_eq_true, if_false, value, List.drop_length]
  rfl

theorem toList_repr (n : Nat) : n.repr.toList = Nat.toDigits 10 n := by
  rw [Nat.repr_eq_ofList_toDigits, String.toList_ofList]

theorem readNumber_toString (n : Int64) :
    readNumber (toString n.toInt).toList = some (integer n.toInt, []) := by
  have least := n.le_toInt
  have most := n.toInt_lt
  generalize n.toInt = n at least most ⊢
  cases n with
  | ofNat n =>
    have digits : (toString (Int.ofNat n)).toList = Nat.toDigits 10 n := toList_repr n
    have small : n < UInt64.size := Int.ofNat_lt.mp (Int.lt_trans most (by decide))
    have read := readUnsigned_toDigits small false
    obtain ⟨c, ds, head, digit⟩ := readUnsigned_head read
    rw [digits, head, readNumber_digit digit, ← head, read]
    rfl
  | negSucc n =>
    have digits : (toString (Int.negSucc n)).toList = '-' :: Nat.toDigits 10 (n + 1) := by
      have text : toString (Int.negSucc n) = "-" ++ (n + 1).repr := rfl
      rw [text, String.toList_append, toList_repr]
      rfl
    have small : n + 1 ≤ Nat.pow 2 63 := by
      rw [Int.negSucc_eq] at least
      have : (Nat.pow 2 63 : Int) = 2 ^ 63 := rfl
      omega
    have fits : n + 1 < UInt64.size := Nat.lt_of_le_of_lt small (by decide)
    rw [digits, readNumber, readUnsigned_toDigits fits true, wholeNumber]
    simp [small, Int.negSucc_eq]

end AccessControl.Json
