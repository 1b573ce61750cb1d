import AccessControl.Json.Printer
import AccessControl.Json.Reader

namespace AccessControl.Json

theorem hexWord_control {c : Char} (control : c.toNat < 0x20) :
    hexWord '0' '0' (hexDigit (c.toNat / 16)) (hexDigit (c.toNat % 16)) = some c.toNat := by
  have all : ∀ n : Fin 32, hexWord '0' '0' (hexDigit (n.val / 16)) (hexDigit (n.val % 16)) = some n.val := by
    decide
  exact all ⟨c.toNat, control⟩

theorem readChars_escape (c : Char) (rest : List Char) :
    readChars none (escape c ++ rest) = prepend (some c) (readChars none rest) := by
  unfold escape
  split
  · next quote =>
    subst quote
    rfl
  split
  · next backslash =>
    subst backslash
    rfl
  split
  · next newline =>
    subst newline
    rfl
  split
  · next carriage =>
    subst carriage
    rfl
  split
  · next tab =>
    subst tab
    rfl
  split
  · next backspace =>
    subst backspace
    rfl
  split
  · next feed =>
    subst feed
    rfl
  split
  · next control =>
    have high : isHighSurrogate c.toNat = false := by
      simp [isHighSurrogate]
      omega
    have low : isLowSurrogate c.toNat = false := by
      simp [isLowSurrogate]
      omega
    simp [readChars, hexWord_control control, high, low, unpaired]
  · next _ backslash _ _ _ _ _ visible =>
    simp [readChars, backslash, visible, unpaired]

theorem readChars_quoted (text rest : List Char) :
    readChars none (text.flatMap escape ++ '"' :: rest) = some (some text, rest) := by
  induction text with
  | nil => rfl
  | cons c cs ih =>
    rw [List.flatMap_cons, List.append_assoc, readChars_escape, ih]
    rfl

theorem readString_quoted (s : String) (rest : List Char) :
    readString (s.toList.flatMap escape ++ '"' :: rest) = some (some s, rest) := by
  rw [readString, readChars_quoted]
  simp

end AccessControl.Json
