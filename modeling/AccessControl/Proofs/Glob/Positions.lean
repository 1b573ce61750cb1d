import AccessControl.Proofs.Glob.Matcher

namespace AccessControl.Glob

variable {pattern value : List Char}

/-- The matcher by positions: how far pattern and value are read, and where in both the last star was. -/
structure Cursor where
  pattern : Nat
  value : Nat
  star : Option (Nat × Nat)

namespace Cursor

inductive Round where
  | next (c : Cursor)
  | done (matched : Bool)
  | outside

def start : Cursor := ⟨0, 0, none⟩

def retreat : Option (Nat × Nat) → Round
  | some (p, v) => .next ⟨p + 1, v + 1, some (p, v + 1)⟩
  | none => .done false

def round (pattern value : List Char) (c : Cursor) : Round :=
  if c.value < value.length then
    match pattern[c.pattern]?, value[c.value]? with
    | _, none => .outside
    | none, some _ => retreat c.star
    | some d, some e =>
      if d = '*' then .next ⟨c.pattern + 1, c.value, some (c.pattern, c.value)⟩
      else if d = '?' ∨ d = e then .next ⟨c.pattern + 1, c.value + 1, c.star⟩
      else retreat c.star
  else if c.pattern ≤ pattern.length then .done ((pattern.drop c.pattern).all fun d => d == '*')
  else .outside

/-- What is left from these positions on. -/
def state (pattern value : List Char) (c : Cursor) : State where
  pattern := pattern.drop c.pattern
  value := value.drop c.value
  star := c.star.map fun (p, v) => (pattern.drop (p + 1), value.drop v)

def Round.step? (pattern value : List Char) : Round → Option Step
  | next c => some (.next (c.state pattern value))
  | done b => some (.done b)
  | outside => none

inductive Reached (pattern value : List Char) : Cursor → Prop where
  | start : Reached pattern value start
  | next {c d : Cursor} : Reached pattern value c → c.round pattern value = .next d → Reached pattern value d

structure Inside (pattern value : List Char) (c : Cursor) : Prop where
  pattern_le : c.pattern ≤ pattern.length
  value_le : c.value ≤ value.length
  star_lt : ∀ p v, c.star = some (p, v) → p < pattern.length ∧ v ≤ c.value

variable {c d : Cursor}

theorem Inside.retreat (inside : c.Inside pattern value) (left : c.value < value.length)
    (next : retreat c.star = .next d) : d.Inside pattern value := by
  rcases star : c.star with _ | ⟨p, v⟩
  · rw [star] at next
    cases next
  · rw [star] at next
    cases next
    have last := inside.star_lt p v star
    refine ⟨last.1, by simp only; omega, ?_⟩
    rintro _ _ ⟨⟩
    exact ⟨last.1, Nat.le_refl _⟩

theorem Inside.next (inside : c.Inside pattern value) (next : c.round pattern value = .next d) :
    d.Inside pattern value := by
  unfold round at next
  by_cases left : c.value < value.length
  · rw [if_pos left, List.getElem?_eq_getElem left] at next
    cases read : pattern[c.pattern]? with
    | none =>
      rw [read] at next
      exact inside.retreat left next
    | some x =>
      obtain ⟨within, _⟩ := List.getElem?_eq_some_iff.mp read
      simp only [read] at next
      split at next
      · cases next
        refine ⟨within, inside.value_le, ?_⟩
        rintro _ _ ⟨⟩
        exact ⟨within, Nat.le_refl _⟩
      · split at next
        · cases next
          refine ⟨within, left, fun p v star => ?_⟩
          have last := inside.star_lt p v star
          exact ⟨last.1, by simp only; omega⟩
        · exact inside.retreat left next
  · rw [if_neg left, if_pos inside.pattern_le] at next
    cases next

theorem Reached.inside (reached : Reached pattern value c) : c.Inside pattern value := by
  induction reached with
  | start => exact ⟨Nat.zero_le _, Nat.zero_le _, by simp [Cursor.start]⟩
  | next _ round ih => exact ih.next round

theorem Inside.step_retreat (inside : c.Inside pattern value) (left : c.value < value.length) :
    (Cursor.retreat c.star).step? pattern value =
      some (Glob.retreat (c.state pattern value).star) := by
  rcases star : c.star with _ | ⟨p, v⟩
  · simp [Cursor.retreat, Round.step?, state, star, Glob.retreat]
  · have last := inside.star_lt p v star
    have within : v < value.length := by omega
    have saved : (c.state pattern value).star =
        some (pattern.drop (p + 1), value[v] :: value.drop (v + 1)) := by
      rw [state, star, ← List.drop_eq_getElem_cons within]
      rfl
    rw [saved]
    rfl

theorem Inside.step (inside : c.Inside pattern value) :
    (c.round pattern value).step? pattern value = some (Glob.step (c.state pattern value)) := by
  unfold round Glob.step
  by_cases left : c.value < value.length
  · have ahead : (c.state pattern value).value = value[c.value] :: value.drop (c.value + 1) :=
      List.drop_eq_getElem_cons left
    rw [if_pos left, List.getElem?_eq_getElem left, ahead]
    cases read : pattern[c.pattern]? with
    | none =>
      have spent : (c.state pattern value).pattern = [] :=
        List.drop_eq_nil_of_le (List.getElem?_eq_none_iff.mp read)
      rw [spent]
      exact inside.step_retreat left
    | some x =>
      obtain ⟨within, rfl⟩ := List.getElem?_eq_some_iff.mp read
      have first : (c.state pattern value).pattern = pattern[c.pattern] :: pattern.drop (c.pattern + 1) :=
        List.drop_eq_getElem_cons within
      rw [first]
      simp only
      split
      · rw [← ahead]
        rfl
      · split
        · rfl
        · exact inside.step_retreat left
  · have spent : (c.state pattern value).value = [] := List.drop_eq_nil_of_le (Nat.le_of_not_lt left)
    rw [if_neg left, if_pos inside.pattern_le, spent]
    rfl

end Cursor

/-- The matcher accepts the values that fall into parts as the pattern asks. From its first state on,
its steps are rounds by positions that stay within the pattern and the value and read nothing outside of
them. -/
theorem accepts_iff_matches (pattern value : String) :
    (accepts pattern value = true ↔ Matches pattern.toList value.toList) ∧
    Cursor.start.state pattern.toList value.toList = ⟨pattern.toList, value.toList, none⟩ ∧
    ∀ c, Cursor.Reached pattern.toList value.toList c →
      c.pattern ≤ pattern.length ∧ c.value ≤ value.length ∧
        (c.round pattern.toList value.toList).step? pattern.toList value.toList =
          some (step (c.state pattern.toList value.toList)) := by
  refine ⟨matchesChars_iff, rfl, fun c reached => ?_⟩
  have inside := reached.inside
  exact ⟨inside.pattern_le, inside.value_le, inside.step⟩

example : accepts "a*b*b" "axbybzb" = true := by decide

end AccessControl.Glob
