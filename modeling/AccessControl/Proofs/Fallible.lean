import Mathlib.Data.List.Forall2

namespace AccessControl

variable {ε α β : Type} {x : Except ε α} {e : ε}

theorem map_eq_ok {f : α → β} {b : β} : x.map f = .ok b ↔ ∃ a, x = .ok a ∧ f a = b := by
  cases x <;> simp [Except.map]

theorem map_eq_error {f : α → β} : x.map f = .error e ↔ x = .error e := by
  cases x <;> simp [Except.map]

theorem bind_eq_ok {f : α → Except ε β} {b : β} : x.bind f = .ok b ↔ ∃ a, x = .ok a ∧ f a = .ok b := by
  cases x <;> simp [Except.bind]

theorem bind_eq_error {f : α → Except ε β} :
    x.bind f = .error e ↔ x = .error e ∨ ∃ a, x = .ok a ∧ f a = .error e := by
  cases x <;> simp [Except.bind]

theorem mapM_cons_except (f : α → Except ε β) (a : α) (as : List α) :
    (a :: as).mapM f = (f a).bind fun b => (as.mapM f).bind fun bs => .ok (b :: bs) := by
  rw [List.mapM_cons]
  rfl

theorem mapM_eq_ok {f : α → Except ε β} {as : List α} {bs : List β} :
    as.mapM f = .ok bs ↔ List.Forall₂ (fun a b => f a = .ok b) as bs := by
  induction as generalizing bs with
  | nil => cases bs <;> simp [pure, Except.pure]
  | cons a as ih =>
    rw [mapM_cons_except, bind_eq_ok, List.forall₂_cons_left_iff]
    refine exists_congr fun b => ?_
    rw [exists_and_left, bind_eq_ok]
    refine and_congr_right fun _ => exists_congr fun rest => ?_
    rw [ih, Except.ok.injEq, eq_comm]

theorem mapM_eq_error {f : α → Except ε β} {as : List α} :
    as.mapM f = .error e ↔
      ∃ before a after, as = before ++ a :: after ∧ (∀ b ∈ before, ∃ y, f b = .ok y) ∧ f a = .error e := by
  induction as with
  | nil => simp [pure, Except.pure]
  | cons a as ih =>
    rw [mapM_cons_except]
    constructor
    · intro failed
      rcases bind_eq_error.mp failed with first | ⟨b, first, failed⟩
      · exact ⟨[], a, as, rfl, by simp, first⟩
      · rcases bind_eq_error.mp failed with rest | ⟨bs, _, ⟨⟩⟩
        obtain ⟨before, a', after, rfl, sound, failed⟩ := ih.mp rest
        exact ⟨a :: before, a', after, rfl, List.forall_mem_cons.mpr ⟨⟨b, first⟩, sound⟩, failed⟩
    · rintro ⟨_ | ⟨b, before⟩, a', after, split, sound, failed⟩
      · cases split
        exact bind_eq_error.mpr (.inl failed)
      · cases split
        obtain ⟨⟨y, first⟩, sound⟩ := List.forall_mem_cons.mp sound
        have rest := ih.mpr ⟨before, a', after, rfl, sound, failed⟩
        exact bind_eq_error.mpr (.inr ⟨y, first, bind_eq_error.mpr (.inl rest)⟩)

section

variable {R : α → β → Prop} {as : List α} {bs before after : List β} {b : β}

theorem forall₂_split (related : List.Forall₂ R as (before ++ b :: after)) :
    ∃ before' a after', as = before' ++ a :: after' ∧ R a b ∧ List.Forall₂ R after' after := by
  induction before generalizing as with
  | nil =>
    obtain ⟨a, after', first, rest, rfl⟩ := List.forall₂_cons_right_iff.mp related
    exact ⟨[], a, after', rfl, first, rest⟩
  | cons b' before ih =>
    obtain ⟨a', as', _, rest, rfl⟩ := List.forall₂_cons_right_iff.mp related
    obtain ⟨before', a, after', rfl, found, later⟩ := ih rest
    exact ⟨a' :: before', a, after', rfl, found, later⟩

theorem forall₂_mem (related : List.Forall₂ R as bs) (member : b ∈ bs) : ∃ a ∈ as, R a b := by
  obtain ⟨before, after, rfl⟩ := List.append_of_mem member
  obtain ⟨before', a, after', rfl, found, _⟩ := forall₂_split related
  exact ⟨a, by simp, found⟩

end

end AccessControl
