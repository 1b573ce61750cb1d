import AccessControl.Toml.Basic

namespace AccessControl.Toml

mutual

def same : Toml → Toml → Bool
  | boolean a, boolean b => a == b
  | integer m, integer n => m == n
  | double a, double b => a == b
  | string s, string t => s == t
  | dateTime s, dateTime t => s == t
  | array vs, array ws => allSame vs ws
  | table fs, table gs => fieldsSame fs gs
  | _, _ => false

def allSame : List Toml → List Toml → Bool
  | [], [] => true
  | v :: vs, w :: ws => same v w && allSame vs ws
  | _, _ => false

def fieldsSame : List (String × Toml) → List (String × Toml) → Bool
  | [], [] => true
  | (k, v) :: fs, (l, w) :: gs => k == l && same v w && fieldsSame fs gs
  | _, _ => false

end

mutual

theorem same_iff (v w : Toml) : same v w = true ↔ v = w := by
  cases v with
  | array vs =>
    cases w with
    | array ws => rw [same, allSame_iff vs ws, array.injEq]
    | _ => simp [same]
  | table fs =>
    cases w with
    | table gs => rw [same, fieldsSame_iff fs gs, table.injEq]
    | _ => simp [same]
  | _ => cases w <;> simp [same]

theorem allSame_iff (vs ws : List Toml) : allSame vs ws = true ↔ vs = ws := by
  cases vs with
  | nil => cases ws <;> simp [allSame]
  | cons v vs =>
    cases ws with
    | nil => simp [allSame]
    | cons w ws => rw [allSame, Bool.and_eq_true, same_iff v w, allSame_iff vs ws, List.cons.injEq]

theorem fieldsSame_iff (fs gs : List (String × Toml)) : fieldsSame fs gs = true ↔ fs = gs := by
  cases fs with
  | nil => cases gs <;> simp [fieldsSame]
  | cons field fs =>
    cases gs with
    | nil => simp [fieldsSame]
    | cons other gs =>
      obtain ⟨k, v⟩ := field
      obtain ⟨l, w⟩ := other
      rw [fieldsSame, Bool.and_eq_true, Bool.and_eq_true, beq_iff_eq, same_iff v w,
        fieldsSame_iff fs gs, List.cons.injEq, Prod.mk.injEq]

end

instance : DecidableEq Toml := fun v w => decidable_of_iff _ (same_iff v w)

end AccessControl.Toml
