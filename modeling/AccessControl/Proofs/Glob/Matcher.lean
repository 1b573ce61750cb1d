import AccessControl.Proofs.Glob.Language

namespace AccessControl.Glob

variable {pattern value : List Char} {s t : State} {b : Bool}

/-- The first character of the pattern is neither a star nor stands for this one, or there is none. -/
def Stuck (p : List Char) (c : Char) : Prop := ∀ d ∈ p.head?, d ≠ '*' ∧ ¬Stands d c

namespace State

/-- A star is remembered, a plain character is taken, and where the matcher is stuck the last star takes
one character more. -/
inductive Moves : State → State → Prop where
  | star (p : List Char) (c : Char) (v : List Char) (last : Option (List Char × List Char)) :
    Moves ⟨'*' :: p, c :: v, last⟩ ⟨p, c :: v, some (p, c :: v)⟩
  | take {d c : Char} (p v : List Char) (last : Option (List Char × List Char)) (stands : Stands d c) :
    Moves ⟨d :: p, c :: v, last⟩ ⟨p, v, last⟩
  | retreat {p : List Char} {c : Char} (v starPattern : List Char) (first : Char) (starValue : List Char)
    (stuck : Stuck p c) :
    Moves ⟨p, c :: v, some (starPattern, first :: starValue)⟩
      ⟨starPattern, starValue, some (starPattern, starValue)⟩

inductive Ends : State → Bool → Prop where
  | value (p : List Char) (last : Option (List Char × List Char)) :
    Ends ⟨p, [], last⟩ (p.all fun d => d == '*')
  | stuck {p : List Char} {c : Char} (v : List Char) (last : Option (List Char × List Char))
    (stuck : Stuck p c) (exhausted : ∀ p first v, last ≠ some (p, first :: v)) : Ends ⟨p, c :: v, last⟩ false

end State

theorem retreat_cases {p : List Char} {c : Char} (v : List Char) (last : Option (List Char × List Char))
    (stuck : Stuck p c) :
    (∃ t, retreat last = .next t ∧ State.Moves ⟨p, c :: v, last⟩ t) ∨
      ∃ b, retreat last = .done b ∧ State.Ends ⟨p, c :: v, last⟩ b := by
  rcases last with _ | ⟨p', _ | ⟨first, v'⟩⟩
  · exact .inr ⟨false, rfl, .stuck v _ stuck (by simp)⟩
  · exact .inr ⟨false, rfl, .stuck v _ stuck (by simp)⟩
  · exact .inl ⟨_, rfl, .retreat v p' first v' stuck⟩

theorem step_cases (s : State) :
    (∃ t, step s = .next t ∧ s.Moves t) ∨ ∃ b, step s = .done b ∧ s.Ends b := by
  obtain ⟨p, v, last⟩ := s
  cases v with
  | nil => exact .inr ⟨_, rfl, .value p last⟩
  | cons c v =>
    cases p with
    | nil => exact retreat_cases v last (by simp [Stuck])
    | cons d p =>
      by_cases star : d = '*'
      · subst star
        exact .inl ⟨_, rfl, .star p c v last⟩
      · by_cases stands : d = '?' ∨ d = c
        · have moved : step ⟨d :: p, c :: v, last⟩ = .next ⟨p, v, last⟩ := by
            simp only [step, star, stands, if_true, if_false]
          exact .inl ⟨_, moved, .take p v last ⟨star, stands⟩⟩
        · have back : step ⟨d :: p, c :: v, last⟩ = retreat last := by
            simp only [step, star, stands, if_false]
          have stuck : Stuck (d :: p) c := by
            rintro _ ⟨⟩
            exact ⟨star, fun stand => stands stand.2⟩
          rw [back]
          exact retreat_cases v last stuck

theorem Stuck.not_matches {p : List Char} {c : Char} (stuck : Stuck p c) (v : List Char) :
    ¬Matches p (c :: v) := by
  cases p with
  | nil => simp [matches_nil]
  | cons d p =>
    obtain ⟨plain, other⟩ := stuck d rfl
    rw [matches_plain plain]
    rintro ⟨_, _, ⟨⟩, stands, _⟩
    exact other stands

/-- The whole question has become one about the last star: what is left of the pattern behind it is to
match a suffix of what was left of the value. Plain characters taken since then stand. -/
inductive State.Tracks (pattern value : List Char) : State → Prop where
  | plain {q u p v : List Char} (stand : List.Forall₂ Stands q u) (pattern_eq : pattern = q ++ p)
    (value_eq : value = u ++ v) : Tracks pattern value ⟨p, v, none⟩
  | behind {starPattern starValue q u p v : List Char}
    (same : Matches ('*' :: starPattern) starValue ↔ Matches pattern value)
    (short : starPattern.length ≤ pattern.length) (stand : List.Forall₂ Stands q u)
    (pattern_eq : starPattern = q ++ p) (value_eq : starValue = u ++ v) :
    Tracks pattern value ⟨p, v, some (starPattern, starValue)⟩

theorem stand_append {q u : List Char} {d c : Char} (stand : List.Forall₂ Stands q u) (stands : Stands d c) :
    List.Forall₂ Stands (q ++ [d]) (u ++ [c]) := List.rel_append stand (.cons stands .nil)

namespace State.Tracks

theorem start (pattern value : List Char) : Tracks pattern value ⟨pattern, value, none⟩ :=
  .plain .nil rfl rfl

theorem moves (tracks : s.Tracks pattern value) (moves : s.Moves t) : t.Tracks pattern value := by
  cases moves with
  | star p c v last =>
    cases tracks with
    | plain stand pattern_eq value_eq =>
      have same : Matches ('*' :: p) (c :: v) ↔ Matches pattern value := by
        rw [pattern_eq, value_eq, matches_append stand]
      have short : p.length ≤ pattern.length := by
        rw [pattern_eq, List.length_append, List.length_cons]
        omega
      exact .behind same short .nil rfl rfl
    | behind same short stand pattern_eq value_eq =>
      -- the star before this one has nothing left to decide
      rw [pattern_eq, value_eq, matches_star_star stand] at same
      have shorter : p.length ≤ pattern.length := by
        rw [pattern_eq, List.length_append, List.length_cons] at short
        omega
      exact .behind same shorter .nil rfl rfl
  | take p v last stands =>
    cases tracks with
    | plain stand pattern_eq value_eq =>
      exact .plain (stand_append stand stands) (by simp [pattern_eq]) (by simp [value_eq])
    | behind same short stand pattern_eq value_eq =>
      exact .behind same short (stand_append stand stands) (by simp [pattern_eq]) (by simp [value_eq])
  | @retreat p c v starPattern first starValue stuck =>
    cases tracks with
    | behind same short stand pattern_eq value_eq =>
      have none : ¬Matches starPattern (first :: starValue) := by
        rw [pattern_eq, value_eq, matches_append stand]
        exact stuck.not_matches v
      rw [matches_star_cons, or_iff_right none] at same
      exact .behind same short .nil rfl rfl

theorem ends (tracks : s.Tracks pattern value) (ends : s.Ends b) : b = true ↔ Matches pattern value := by
  cases ends with
  | value p last =>
    have stars : (p.all fun d => d == '*') = true ↔ Matches p [] := by simp [matches_empty]
    rw [stars]
    cases tracks with
    | plain stand pattern_eq value_eq => rw [pattern_eq, value_eq, matches_append stand]
    | @behind starPattern starValue q u _ _ same short stand pattern_eq value_eq =>
      rw [← same, pattern_eq, value_eq]
      constructor
      · intro tail
        exact matches_star.mpr ⟨u ++ [], List.suffix_refl _, (matches_append stand).mpr tail⟩
      · intro all
        obtain ⟨rest, suffix, tail⟩ := all.behind_star stand
        rwa [List.suffix_nil.mp suffix] at tail
  | @stuck p c v last stuck exhausted =>
    cases tracks with
    | plain stand pattern_eq value_eq =>
      rw [pattern_eq, value_eq, matches_append stand]
      simp [stuck.not_matches v]
    | @behind starPattern starValue q u _ _ same short stand pattern_eq value_eq =>
      have left : starValue ≠ [] := by simp [value_eq]
      obtain ⟨first, rest, split⟩ := List.exists_cons_of_ne_nil left
      exact absurd (by rw [split]) (exhausted starPattern first rest)

end State.Tracks

def State.room (value : List Char) (s : State) : Nat :=
  match s.star with
  | some (_, v) => v.length
  | none => value.length

/-- Each move shortens the pattern, or else what the last star can take. -/
def State.rank (pattern value : List Char) (s : State) : Nat :=
  s.room value * (pattern.length + 1) + s.pattern.length

theorem State.Tracks.rank_lt (tracks : s.Tracks pattern value) (moves : s.Moves t) :
    t.rank pattern value < s.rank pattern value := by
  cases moves with
  | star p c v last =>
    have room : (c :: v).length ≤ State.room value ⟨'*' :: p, c :: v, last⟩ := by
      cases tracks with
      | plain _ _ value_eq => simp [State.room, value_eq]
      | behind _ _ _ _ value_eq => simp [State.room, value_eq]
    have scaled := Nat.mul_le_mul_right (pattern.length + 1) room
    simp only [State.rank, State.room, List.length_cons] at scaled ⊢
    omega
  | take p v last stands =>
    simp only [State.rank, State.room, List.length_cons]
    omega
  | retreat v starPattern first starValue stuck =>
    cases tracks with
    | behind _ short _ _ _ =>
      simp only [State.rank, State.room, List.length_cons, Nat.add_mul]
      omega

theorem run_decides (n : Nat) (tracks : s.Tracks pattern value) (enough : s.rank pattern value < n) :
    ∃ b, run n s = some b ∧ (b = true ↔ Matches pattern value) := by
  induction n generalizing s with
  | zero => omega
  | succ n ih =>
    rcases step_cases s with ⟨t, next, moves⟩ | ⟨b, done, ends⟩
    · have smaller := tracks.rank_lt moves
      obtain ⟨b, result, decides⟩ := ih (tracks.moves moves) (by omega)
      exact ⟨b, by simp only [run, next, result], decides⟩
    · exact ⟨b, by simp only [run, done], tracks.ends ends⟩

theorem rank_start (pattern value : List Char) :
    State.rank pattern value ⟨pattern, value, none⟩ < bound pattern value := by
  simp only [State.rank, State.room, bound, Nat.mul_add, Nat.mul_comm]
  omega

theorem matchesChars_iff : matchesChars pattern value = true ↔ Matches pattern value := by
  have enough := rank_start pattern value
  obtain ⟨b, result, decides⟩ := run_decides (bound pattern value + 1) (.start pattern value) (by omega)
  rw [matchesChars, result, Option.getD_some, decides]

end AccessControl.Glob
