import Mathlib.Data.List.Forall2
import AccessControl.Proofs.Eager.Policy

namespace AccessControl

/-- A value stays, and a failure may become anything. -/
def Stays {α : Type} (r r' : Except Reason α) : Prop := ∀ v, r = .ok v → r' = .ok v

namespace Stays

variable {α β : Type} {r r' : Except Reason α}

theorem refl (r : Except Reason α) : Stays r r := fun _ ok => ok

theorem error (e : Reason) (r : Except Reason α) : Stays (.error e) r := by
  intro v ok
  cases ok

theorem bind (stays : Stays r r') {f f' : α → Except Reason β} (each : ∀ v, Stays (f v) (f' v)) :
    Stays (r.bind f) (r'.bind f') := by
  intro w ok
  cases r with
  | error e => cases ok
  | ok v =>
    rw [stays v rfl]
    exact each v w ok

theorem map (stays : Stays r r') (f : α → β) : Stays (r.map f) (r'.map f) := by
  intro w ok
  cases r with
  | error e => cases ok
  | ok v =>
    rw [stays v rfl]
    exact ok

end Stays

namespace Expression

mutual

def functions : Expression → List Function
  | literal _ => []
  | ref _ => []
  | compare _ l r => l.functions ++ r.functions
  | and es => functionsOf es
  | or es => functionsOf es
  | not e => e.functions
  | call f es => f :: functionsOf es

def functionsOf : List Expression → List Function
  | [] => []
  | e :: es => e.functions ++ functionsOf es

end

theorem not_mem_functionsOf {f : Function} {es : List Expression} (unused : f ∉ functionsOf es) :
    ∀ e ∈ es, f ∉ e.functions := by
  induction es with
  | nil => simp
  | cons e es ih =>
    rw [functionsOf, List.mem_append, not_or] at unused
    exact List.forall_mem_cons.mpr ⟨unused.1, ih unused.2⟩

theorem past_settled {settling b : Bool} {r : Reason} {rest : Except Reason Bool}
    (ok : past settling r rest = .ok b) : rest = .ok settling ∧ b = settling := by
  unfold past at ok
  split at ok
  · rename_i c
    split at ok
    · rename_i settles
      cases ok
      exact ⟨by rw [settles], rfl⟩
    · cases ok
  · cases ok

theorem connect_settled_cons {settling : Bool} {rs : List (Except Reason Bool)}
    (settled : connect settling rs = .ok settling) (r : Except Reason Bool) :
    connect settling (r :: rs) = .ok settling := by
  rw [connect_cons, settled]
  cases r with
  | ok b => simp
  | error e => exact if_pos rfl

theorem connect_stays {settling : Bool} {rs rs' : List (Except Reason Bool)}
    (each : List.Forall₂ Stays rs rs') : Stays (connect settling rs) (connect settling rs') := by
  induction each with
  | nil => exact .refl _
  | @cons r r' rs rs' head _ ih =>
    intro b ok
    cases r with
    | ok c =>
      rw [head c rfl]
      rw [connect_cons] at ok ⊢
      by_cases settles : c = settling
      · simpa only [settles, if_true] using ok
      · simp only [settles, if_false] at ok ⊢
        exact ih b ok
    | error e =>
      -- whatever the failed operand becomes, the later one that settled still does
      rw [connect_cons] at ok
      obtain ⟨settled, rfl⟩ := past_settled ok
      exact connect_settled_cons (ih b settled) r'

theorem collect_stays {rs rs' : List (Except Reason AttributeValue)} (each : List.Forall₂ Stays rs rs') :
    Stays (collect rs) (collect rs') := by
  induction each with
  | nil => exact .refl _
  | @cons r r' rs rs' head _ ih =>
    cases r with
    | error e => exact .error e _
    | ok v =>
      rw [head v rfl, collect_cons, collect_cons]
      exact ih.bind fun vs => .refl _

variable {env env' : Valuation}

theorem eagerAll_stays {es : List Expression} (each : ∀ e ∈ es, Stays (e.eager env) (e.eager env')) :
    List.Forall₂ Stays (eagerAll env es) (eagerAll env' es) := by
  induction es with
  | nil => exact .nil
  | cons e es ih =>
    obtain ⟨head, tail⟩ := List.forall_mem_cons.mp each
    exact .cons head (ih tail)

theorem truths_stay {rs rs' : List (Except Reason AttributeValue)} (each : List.Forall₂ Stays rs rs') :
    List.Forall₂ Stays (rs.map fun v => v.bind AttributeValue.truth)
      (rs'.map fun v => v.bind AttributeValue.truth) := by
  rw [List.forall₂_map_left_iff, List.forall₂_map_right_iff]
  exact each.imp fun _ _ stays => stays.bind fun _ => .refl _

theorem eager_stays (informed : ∀ a, Stays (env a) (env' a)) (e : Expression)
    (untested : .isPresent ∉ e.functions) : Stays (e.eager env) (e.eager env') := by
  induction e with
  | literal v => exact .refl _
  | ref a => exact informed a
  | compare op l r left right =>
    rw [functions, List.mem_append, not_or] at untested
    rw [compare_eager, compare_eager]
    exact (left untested.1).bind fun a => (right untested.2).bind fun b => .refl _
  | and es each =>
    have operands := eagerAll_stays fun e member => each e member (not_mem_functionsOf untested e member)
    exact (connect_stays (truths_stay operands)).map _
  | or es each =>
    have operands := eagerAll_stays fun e member => each e member (not_mem_functionsOf untested e member)
    exact (connect_stays (truths_stay operands)).map _
  | not e operand => exact ((operand untested).bind fun _ => .refl _).map _
  | call f es each =>
    rw [functions, List.mem_cons, not_or] at untested
    have args := eagerAll_stays fun e member => each e member (not_mem_functionsOf untested.2 e member)
    rw [call_eager env (Ne.symm untested.1), call_eager env' (Ne.symm untested.1)]
    exact (collect_stays args).bind fun _ => .refl _

theorem eagerIfPresent_stays (informed : ∀ a, Stays (env a) (env' a)) (e : Option Expression)
    (untested : ∀ x ∈ e, .isPresent ∉ x.functions) :
    Stays (eagerIfPresent env e) (eagerIfPresent env' e) := by
  cases e with
  | none => exact .refl _
  | some e => exact (eager_stays informed e (untested e rfl)).bind fun _ => .refl _

end Expression

end AccessControl
