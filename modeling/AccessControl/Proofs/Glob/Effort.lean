import AccessControl.Proofs.Glob.Positions

namespace AccessControl.Glob

variable {pattern value : List Char} {s : State} {c d : Cursor} {n m : Nat} {b : Bool}

/-- The loop by positions answers after so many rounds. Each round begins with a character of the value
left. Where none is left the pattern decides, and a round that cannot return to a star decides itself. -/
inductive Cursor.Loop (pattern value : List Char) : Cursor → Nat → Bool → Prop where
  | leave {c : Cursor} {b : Bool} (spent : value.length ≤ c.value)
    (decided : c.round pattern value = .done b) : Loop pattern value c 0 b
  | stop {c : Cursor} {b : Bool} (left : c.value < value.length)
    (decided : c.round pattern value = .done b) : Loop pattern value c 1 b
  | again {c d : Cursor} {n : Nat} {b : Bool} (left : c.value < value.length)
    (next : c.round pattern value = .next d) (rest : Loop pattern value d n b) :
    Loop pattern value c (n + 1) b

theorem run_mono (result : run n s = some b) (more : n ≤ m) : run m s = some b := by
  induction m generalizing n s with
  | zero =>
    obtain rfl := Nat.le_zero.mp more
    exact result
  | succ m ih =>
    cases n with
    | zero => cases result
    | succ n =>
      rw [run] at result ⊢
      cases moved : step s with
      | done a => simpa only [moved] using result
      | next t =>
        simp only [moved] at result ⊢
        exact ih result (by omega)

namespace Cursor

theorem Inside.round_cases (inside : c.Inside pattern value) :
    (∃ d, c.round pattern value = .next d ∧
        Glob.step (c.state pattern value) = .next (d.state pattern value) ∧
        (c.state pattern value).Moves (d.state pattern value)) ∨
      ∃ b, c.round pattern value = .done b ∧ Glob.step (c.state pattern value) = .done b := by
  have same := inside.step
  cases round : c.round pattern value with
  | next d =>
    rw [round] at same
    have stepped : Glob.step (c.state pattern value) = .next (d.state pattern value) :=
      (Option.some.inj same).symm
    rcases step_cases (c.state pattern value) with ⟨t, next, moves⟩ | ⟨b, ended, _⟩
    · rw [stepped] at next
      cases next
      exact .inl ⟨d, rfl, stepped, moves⟩
    · rw [stepped] at ended
      cases ended
  | done b =>
    rw [round] at same
    exact .inr ⟨b, rfl, (Option.some.inj same).symm⟩
  | outside =>
    rw [round] at same
    cases same

theorem left_of_next (next : c.round pattern value = .next d) : c.value < value.length := by
  by_contra spent
  unfold round at next
  rw [if_neg spent] at next
  split at next <;> cases next

theorem Inside.exists_loop (inside : c.Inside pattern value)
    (tracks : (c.state pattern value).Tracks pattern value)
    (enough : (c.state pattern value).rank pattern value < m) :
    ∃ n b, n ≤ m ∧ Loop pattern value c n b := by
  induction m generalizing c with
  | zero => omega
  | succ m ih =>
    rcases inside.round_cases with ⟨d, next, _, moves⟩ | ⟨b, decided, _⟩
    · have smaller := tracks.rank_lt moves
      obtain ⟨n, b, few, rest⟩ := ih (inside.next next) (tracks.moves moves) (by omega)
      exact ⟨n + 1, b, by omega, .again (left_of_next next) next rest⟩
    · rcases Nat.lt_or_ge c.value value.length with left | spent
      · exact ⟨1, b, by omega, .stop left decided⟩
      · exact ⟨0, b, by omega, .leave spent decided⟩

theorem Loop.run (loop : Loop pattern value c n b) (inside : c.Inside pattern value) :
    Glob.run (n + 1) (c.state pattern value) = some b := by
  induction loop with
  | leave _ decided | stop _ decided =>
    rcases inside.round_cases with ⟨d, next, _⟩ | ⟨a, ended, stepped⟩
    · rw [decided] at next
      cases next
    · rw [decided] at ended
      cases ended
      simp only [Glob.run, stepped]
  | again _ next _ ih =>
    rcases inside.round_cases with ⟨d, same, stepped, _⟩ | ⟨a, ended, _⟩
    · rw [next] at same
      cases same
      rw [Glob.run, stepped]
      exact ih (inside.next next)
    · rw [next] at ended
      cases ended

theorem Loop.unique {a : Bool} (loop : Loop pattern value c n b) (other : Loop pattern value c m a) :
    n = m := by
  induction loop generalizing m a with
  | leave spent decided =>
    cases other with
    | leave => rfl
    | stop left | again left => omega
  | stop left decided =>
    cases other with
    | leave spent => omega
    | stop => rfl
    | again _ next =>
      rw [decided] at next
      cases next
  | again left next _ ih =>
    cases other with
    | leave spent => omega
    | stop _ decided =>
      rw [next] at decided
      cases decided
    | again _ same rest =>
      rw [next] at same
      cases same
      rw [ih rest]

end Cursor

/-- The loop of the matcher ends, after a number of rounds that is at most the product of the lengths of
pattern and value with one added to each, and its answer is whether the pattern accepts the value. -/
theorem loop_ends_within (pattern value : String) :
    ∃ n, n ≤ (pattern.length + 1) * (value.length + 1) ∧
      ∀ k b, Cursor.Loop pattern.toList value.toList Cursor.start k b ↔
        k = n ∧ b = accepts pattern value := by
  have inside : Cursor.start.Inside pattern.toList value.toList := Cursor.Reached.start.inside
  obtain ⟨n, answer, few, loop⟩ :=
    inside.exists_loop (.start pattern.toList value.toList) (rank_start pattern.toList value.toList)
  have agrees {k : Nat} {b : Bool} (short : k ≤ bound pattern.toList value.toList)
      (ends : Cursor.Loop pattern.toList value.toList Cursor.start k b) : b = accepts pattern value := by
    have result := run_mono (ends.run inside) (Nat.succ_le_succ short)
    exact (congrArg (Option.getD · false) result).symm
  refine ⟨n, few, fun k b => ⟨fun other => ?_, ?_⟩⟩
  · obtain rfl := other.unique loop
    exact ⟨rfl, agrees few other⟩
  · rintro ⟨rfl, rfl⟩
    rwa [← agrees few loop]

end AccessControl.Glob
