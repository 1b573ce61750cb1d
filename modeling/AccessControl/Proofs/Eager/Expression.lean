import AccessControl.Expression.Evaluate
import AccessControl.Proofs.Cache.Reads
import AccessControl.Proofs.Fallible
import AccessControl.Proofs.Induction

namespace AccessControl

/-- What an attribute stands for, or why it has no value. -/
abbrev Valuation := AttributeId → Except Reason AttributeValue

namespace Expression

def failure? {α : Type} : Except Reason α → Option Reason
  | .ok _ => none
  | .error r => some r

def isTruth (b : Bool) : Except Reason Bool → Bool
  | .ok c => c == b
  | .error _ => false

/-- A connective over the truths of all its operands: any that is `settling` settles it, else the
first failure stands, else it is the opposite. -/
def connect (settling : Bool) (operands : List (Except Reason Bool)) : Except Reason Bool :=
  if operands.any (isTruth settling) then .ok settling
  else
    match operands.findSome? failure? with
    | some r => .error r
    | none => .ok !settling

def collect (args : List (Except Reason AttributeValue)) : Except Reason (List AttributeValue) :=
  args.mapM id

/-- A value is present unless it is missing or its source fails. -/
def presence : Except Reason AttributeValue → Except Reason Bool
  | .ok _ => .ok true
  | .error (.missingAttribute _) => .ok false
  | .error (.resolverFailure _ _) => .ok false
  | .error r => .error r

mutual

def eager (env : Valuation) : Expression → Except Reason AttributeValue
  | literal v => .ok v
  | ref a => env a
  | compare op l r =>
    match l.eager env, r.eager env with
    | .error e, _ => .error e
    | .ok _, .error e => .error e
    | .ok a, .ok b => (op.apply a b).map .ofBool
  | and es => (connect false ((eagerAll env es).map fun v => v.bind AttributeValue.truth)).map .ofBool
  | or es => (connect true ((eagerAll env es).map fun v => v.bind AttributeValue.truth)).map .ofBool
  | not e => ((e.eager env).bind AttributeValue.truth).map fun b => .ofBool !b
  | call f es =>
    if f = .isPresent then
      match es with
      | [ref a] => (presence (env a)).map .ofBool
      | _ => .error (.typeMismatch "is_present expects a single attribute reference")
    else (collect (eagerAll env es)).bind f.apply

def eagerAll (env : Valuation) : List Expression → List (Except Reason AttributeValue)
  | [] => []
  | e :: es => e.eager env :: eagerAll env es

end

def eagerTruth (env : Valuation) (e : Expression) : Except Reason Bool :=
  (e.eager env).bind AttributeValue.truth

def past (settling : Bool) (r : Reason) : Except Reason Bool → Except Reason Bool
  | .ok b => if b = settling then .ok settling else .error r
  | .error _ => .error r

theorem connect_cons (settling : Bool) (t : Except Reason Bool) (ts : List (Except Reason Bool)) :
    connect settling (t :: ts) =
      match t with
      | .ok b => if b = settling then .ok settling else connect settling ts
      | .error r => past settling r (connect settling ts) := by
  cases t with
  | ok b =>
    by_cases settles : b = settling <;> simp [connect, isTruth, failure?, List.findSome?_cons, settles]
  | error r =>
    cases settled : ts.any (isTruth settling)
    · cases failed : ts.findSome? failure? <;>
        simp [connect, past, isTruth, failure?, List.findSome?_cons, settled, failed]
    · simp [connect, past, isTruth, settled]

theorem presence_eager_malformed (env : Valuation) {es : List Expression} (other : ¬∃ a, es = [ref a]) :
    (call .isPresent es).eager env =
      .error (.typeMismatch "is_present expects a single attribute reference") := by
  simp only [eager, if_true]
  split
  · exact absurd ⟨_, rfl⟩ other
  · rfl

theorem call_eager (env : Valuation) {f : Function} (other : f ≠ .isPresent) (es : List Expression) :
    (call f es).eager env = (collect (eagerAll env es)).bind f.apply := by
  simp only [eager, if_neg other]

theorem compare_eager (env : Valuation) (op : CompareOp) (l r : Expression) :
    (compare op l r).eager env =
      (l.eager env).bind fun a => (r.eager env).bind fun b => (op.apply a b).map .ofBool := by
  rw [eager]
  cases l.eager env <;> cases r.eager env <;> rfl

theorem collect_cons (v : Except Reason AttributeValue) (vs : List (Except Reason AttributeValue)) :
    collect (v :: vs) = v.bind fun a => (collect vs).bind fun as => .ok (a :: as) :=
  mapM_cons_except id v vs

open Cache (Reads)

section

variable (ctx : Context)

theorem value_compare (op : CompareOp) (l r : Expression) :
    (compare op l r).value ctx =
      Cache.bind (l.value ctx) fun a =>
        Cache.bind (r.value ctx) fun b c => ((op.apply a b).map .ofBool, c) := by
  funext c
  rcases first : l.value ctx c with ⟨_ | a, d⟩
  · simp only [value, Cache.bind, first]
  · rcases second : r.value ctx d with ⟨_ | b, _⟩ <;> simp only [value, Cache.bind, first, second]

theorem connective_cons (settling : Bool) (e : Expression) (es : List Expression) :
    connective ctx settling (e :: es) =
      Cache.andThen (e.value ctx) fun v =>
        match v.bind AttributeValue.truth with
        | .ok b => if b = settling then fun c => (.ok settling, c) else connective ctx settling es
        | .error r => fun c =>
          (past settling r (connective ctx settling es c).1, (connective ctx settling es c).2) := by
  funext c
  simp only [connective, Cache.andThen]
  rcases e.value ctx c with ⟨v, d⟩
  cases v.bind AttributeValue.truth with
  | ok b => by_cases settles : b = settling <;> simp only [settles, if_true, if_false]
  | error r =>
    simp only []
    rcases connective ctx settling es d with ⟨_ | b, _⟩
    · rfl
    · by_cases settles : b = settling <;> simp [past, settles]

theorem values_cons (e : Expression) (es : List Expression) :
    values ctx (e :: es) =
      Cache.bind (e.value ctx) fun v => Cache.bind (values ctx es) fun vs c => (.ok (v :: vs), c) := by
  funext c
  rcases first : e.value ctx c with ⟨_ | v, d⟩
  · simp only [values, Cache.bind, first]
  · rcases rest : values ctx es d with ⟨_ | vs, _⟩ <;> simp only [values, Cache.bind, first, rest]

theorem value_call {f : Function} (other : f ≠ .isPresent) (es : List Expression) :
    (call f es).value ctx = Cache.bind (values ctx es) fun vs c => (f.apply vs, c) := by
  funext c
  rcases args : values ctx es c with ⟨_ | vs, _⟩ <;> simp only [value, if_neg other, Cache.bind, args]

theorem value_presence (a : AttributeId) (c : Cache) :
    (call .isPresent [ref a]).value ctx c =
      ((presence (c.lookup ctx a).1).map .ofBool, (c.lookup ctx a).2) := by
  simp only [value, if_true]
  rcases c.lookup ctx a with ⟨r | v, d⟩
  · cases r <;> rfl
  · rfl

theorem value_presence_malformed {es : List Expression} (other : ¬∃ a, es = [ref a]) (c : Cache) :
    (call .isPresent es).value ctx c =
      (.error (.typeMismatch "is_present expects a single attribute reference"), c) := by
  simp only [value, if_true]
  split
  · exact absurd ⟨_, rfl⟩ other
  · rfl

end

variable {s : Snapshot} {ctx : Context}

theorem connective_reads (settling : Bool) (es : List Expression)
    (each : ∀ e ∈ es, Reads s ctx e.attributes (e.value ctx) (e.eager (ctx.request.read s))) :
    Reads s ctx (attributesOf es) (connective ctx settling es)
      (connect settling ((eagerAll (ctx.request.read s) es).map fun v => v.bind AttributeValue.truth)) := by
  induction es with
  | nil => exact .skip [] _
  | cons e es ih =>
    obtain ⟨head, tail⟩ := List.forall_mem_cons.mp each
    have rest := ih tail
    rw [connective_cons]
    refine head.andThen (y := fun v => connect settling (v.bind AttributeValue.truth :: _)) fun v => ?_
    rw [connect_cons]
    cases v.bind AttributeValue.truth with
    | ok b =>
      by_cases settles : b = settling
      · simp only [settles, if_true]
        exact .skip _ _
      · simp only [settles, if_false]
        exact rest
    | error r => exact rest.map (past settling r)

theorem values_reads (es : List Expression)
    (each : ∀ e ∈ es, Reads s ctx e.attributes (e.value ctx) (e.eager (ctx.request.read s))) :
    Reads s ctx (attributesOf es) (values ctx es) (collect (eagerAll (ctx.request.read s) es)) := by
  induction es with
  | nil => exact .skip [] _
  | cons e es ih =>
    obtain ⟨head, tail⟩ := List.forall_mem_cons.mp each
    rw [values_cons, eagerAll, collect_cons]
    exact head.bind fun v => (ih tail).bind_apply fun vs => .ok (v :: vs)

theorem value_reads (e : Expression) :
    Reads s ctx e.attributes (e.value ctx) (e.eager (ctx.request.read s)) := by
  induction e with
  | literal v => exact .skip [] _
  | ref a => exact .look a
  | compare op l r left right =>
    rw [value_compare, compare_eager]
    exact left.bind fun a => right.bind_apply fun b => (op.apply a b).map AttributeValue.ofBool
  | and es each => exact (connective_reads false es each).map (Except.map AttributeValue.ofBool)
  | or es each => exact (connective_reads true es each).map (Except.map AttributeValue.ofBool)
  | not e operand =>
    exact operand.map fun v => (v.bind AttributeValue.truth).map fun b => AttributeValue.ofBool !b
  | call f es each =>
    by_cases test : f = .isPresent
    · subst test
      by_cases single : ∃ a, es = [ref a]
      · obtain ⟨a, rfl⟩ := single
        rw [funext (value_presence ctx a)]
        exact (Reads.look a).map fun v => (presence v).map AttributeValue.ofBool
      · rw [funext (value_presence_malformed ctx single), presence_eager_malformed _ single]
        exact .skip _ _
    · rw [value_call ctx test, call_eager _ test]
      exact (values_reads es each).bind_apply f.apply

end Expression

end AccessControl
