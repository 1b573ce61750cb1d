import Mathlib.Data.List.Forall2
import AccessControl.Expression.Glob

namespace AccessControl.Glob

/-- What a character of a pattern may have for its part of the value. -/
def Fits (d : Char) (part : List Char) : Prop :=
  if d = '*' then True else if d = '?' then part.length = 1 else part = [d]

def Matches (pattern value : List Char) : Prop :=
  ∃ parts, List.Forall₂ Fits pattern parts ∧ parts.flatten = value

def Stands (d c : Char) : Prop := d ≠ '*' ∧ (d = '?' ∨ d = c)

variable {pattern value p v q u : List Char} {c d : Char}

theorem fits_star (part : List Char) : Fits '*' part := by simp [Fits]

theorem fits_iff (plain : d ≠ '*') {part : List Char} : Fits d part ↔ ∃ c, Stands d c ∧ part = [c] := by
  by_cases any : d = '?'
  · have one : Fits d part ↔ part.length = 1 := by simp [Fits, any]
    rw [one, List.length_eq_one_iff]
    simp [Stands, any]
  · simp [Fits, Stands, plain, any]

theorem matches_nil : Matches [] v ↔ v = [] := by
  constructor
  · rintro ⟨parts, each, rfl⟩
    cases each
    rfl
  · intro empty
    exact ⟨[], .nil, empty.symm⟩

theorem matches_cons : Matches (d :: p) v ↔ ∃ part rest, v = part ++ rest ∧ Fits d part ∧ Matches p rest := by
  constructor
  · rintro ⟨parts, each, rfl⟩
    cases each with
    | @cons _ part _ parts fits each => exact ⟨part, parts.flatten, rfl, fits, parts, each, rfl⟩
  · rintro ⟨part, rest, rfl, fits, parts, each, rfl⟩
    exact ⟨part :: parts, .cons fits each, rfl⟩

theorem matches_star : Matches ('*' :: p) v ↔ ∃ rest, rest <:+ v ∧ Matches p rest := by
  rw [matches_cons]
  constructor
  · rintro ⟨part, rest, rfl, _, tail⟩
    exact ⟨rest, List.suffix_append part rest, tail⟩
  · rintro ⟨rest, ⟨part, rfl⟩, tail⟩
    exact ⟨part, rest, rfl, fits_star part, tail⟩

theorem matches_plain (plain : d ≠ '*') :
    Matches (d :: p) v ↔ ∃ c rest, v = c :: rest ∧ Stands d c ∧ Matches p rest := by
  rw [matches_cons]
  constructor
  · rintro ⟨part, rest, rfl, fits, tail⟩
    obtain ⟨c, stands, rfl⟩ := (fits_iff plain).mp fits
    exact ⟨c, rest, rfl, stands, tail⟩
  · rintro ⟨c, rest, rfl, stands, tail⟩
    exact ⟨[c], rest, rfl, (fits_iff plain).mpr ⟨c, stands, rfl⟩, tail⟩

theorem matches_stands (stands : Stands d c) : Matches (d :: p) (c :: v) ↔ Matches p v := by
  rw [matches_plain stands.1]
  constructor
  · rintro ⟨_, _, ⟨⟩, _, tail⟩
    exact tail
  · intro tail
    exact ⟨c, v, rfl, stands, tail⟩

theorem matches_empty : Matches p [] ↔ ∀ d ∈ p, d = '*' := by
  induction p with
  | nil => simp [matches_nil]
  | cons d p ih =>
    rw [List.forall_mem_cons]
    by_cases star : d = '*'
    · subst star
      rw [matches_star]
      simp [ih]
    · rw [matches_plain star]
      simp [star]

theorem Matches.star_suffix (long : Matches ('*' :: p) u) (suffix : u <:+ v) : Matches ('*' :: p) v := by
  obtain ⟨rest, within, tail⟩ := matches_star.mp long
  exact matches_star.mpr ⟨rest, within.trans suffix, tail⟩

theorem matches_star_cons : Matches ('*' :: p) (c :: v) ↔ Matches p (c :: v) ∨ Matches ('*' :: p) v := by
  constructor
  · intro all
    obtain ⟨rest, suffix, tail⟩ := matches_star.mp all
    rcases List.suffix_cons_iff.mp suffix with rfl | suffix
    · exact .inl tail
    · exact .inr (matches_star.mpr ⟨rest, suffix, tail⟩)
  · rintro (none | more)
    · exact matches_star.mpr ⟨c :: v, List.suffix_refl _, none⟩
    · exact more.star_suffix (List.suffix_cons c v)

theorem matches_append (stand : List.Forall₂ Stands q u) : Matches (q ++ p) (u ++ v) ↔ Matches p v := by
  induction stand with
  | nil => rfl
  | cons stands _ ih => rw [List.cons_append, List.cons_append, matches_stands stands, ih]

theorem Matches.behind (stand : List.Forall₂ Stands q u) (all : Matches (q ++ p) v) :
    ∃ taken rest, v = taken ++ rest ∧ taken.length = u.length ∧ Matches p rest := by
  induction stand generalizing v with
  | nil => exact ⟨[], v, rfl, rfl, all⟩
  | cons stands _ ih =>
    obtain ⟨c, w, rfl, _, tail⟩ := (matches_plain stands.1).mp all
    obtain ⟨taken, rest, rfl, length, tail⟩ := ih tail
    exact ⟨c :: taken, rest, rfl, congrArg (· + 1) length, tail⟩

theorem Matches.behind_star (stand : List.Forall₂ Stands q u) (all : Matches ('*' :: (q ++ p)) (u ++ v)) :
    ∃ rest, rest <:+ v ∧ Matches p rest := by
  obtain ⟨behind, suffix, tail⟩ := matches_star.mp all
  obtain ⟨taken, rest, rfl, length, tail⟩ := tail.behind stand
  have within : rest <:+ u ++ v := (List.suffix_append taken rest).trans suffix
  have short : rest.length ≤ v.length := by
    have total := suffix.length_le
    simp only [List.length_append] at total
    omega
  exact ⟨rest, List.suffix_of_suffix_length_le within (List.suffix_append u v) short, tail⟩

theorem matches_star_star (stand : List.Forall₂ Stands q u) :
    Matches ('*' :: (q ++ '*' :: p)) (u ++ v) ↔ Matches ('*' :: p) v := by
  constructor
  · intro all
    obtain ⟨rest, suffix, tail⟩ := all.behind_star stand
    exact tail.star_suffix suffix
  · intro tail
    exact matches_star.mpr ⟨u ++ v, List.suffix_refl _, (matches_append stand).mpr tail⟩

end AccessControl.Glob
