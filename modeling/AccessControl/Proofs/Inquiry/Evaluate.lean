import AccessControl.Proofs.Eager.Policy
import AccessControl.Proofs.Inquiry.Basic

namespace AccessControl

namespace Expression

mutual

def inquiry : Expression → Inquiry (Except Reason AttributeValue)
  | literal v => .done (.ok v)
  | ref a => .look a .done
  | compare op l r => l.inquiry.bind fun a => r.inquiry.bind fun b => .done ((op.apply a b).map .ofBool)
  | and es => (connectiveInquiry false es).map (Except.map .ofBool)
  | or es => (connectiveInquiry true es).map (Except.map .ofBool)
  | not e => e.inquiry.map fun v => (v.bind AttributeValue.truth).map fun b => .ofBool !b
  | call f es =>
    if f = .isPresent then
      match es with
      | [ref a] => .look a fun v => .done ((presence v).map .ofBool)
      | _ => .done (.error (.typeMismatch "is_present expects a single attribute reference"))
    else (valuesInquiry es).bind fun vs => .done (f.apply vs)

def connectiveInquiry (settling : Bool) : List Expression → Inquiry (Except Reason Bool)
  | [] => .done (.ok !settling)
  | e :: es => e.inquiry.andThen fun v =>
    match v.bind AttributeValue.truth with
    | .ok b => if b = settling then .done (.ok settling) else connectiveInquiry settling es
    | .error r => (connectiveInquiry settling es).map (past settling r)

def valuesInquiry : List Expression → Inquiry (Except Reason (List AttributeValue))
  | [] => .done (.ok [])
  | e :: es => e.inquiry.bind fun v => (valuesInquiry es).bind fun vs => .done (.ok (v :: vs))

end

variable {ctx : Context}

theorem run_connectiveInquiry (settling : Bool) (es : List Expression)
    (each : ∀ e ∈ es, e.inquiry.run ctx = e.value ctx) :
    (connectiveInquiry settling es).run ctx = connective ctx settling es := by
  induction es with
  | nil => rfl
  | cons e es ih =>
    obtain ⟨head, tail⟩ := List.forall_mem_cons.mp each
    have rest := ih tail
    rw [connectiveInquiry, Inquiry.run_andThen, connective_cons, head]
    congr 1
    funext v
    cases v.bind AttributeValue.truth with
    | ok b =>
      by_cases settles : b = settling
      · simp only [settles, if_true]
        rfl
      · simp only [settles, if_false, rest]
    | error r => simp only [Inquiry.run_map, rest]

theorem run_valuesInquiry (es : List Expression) (each : ∀ e ∈ es, e.inquiry.run ctx = e.value ctx) :
    (valuesInquiry es).run ctx = values ctx es := by
  induction es with
  | nil => rfl
  | cons e es ih =>
    obtain ⟨head, tail⟩ := List.forall_mem_cons.mp each
    rw [valuesInquiry, Inquiry.run_bind, values_cons, head]
    simp only [Inquiry.run_bind, ih tail]
    rfl

theorem run_inquiry (e : Expression) : e.inquiry.run ctx = e.value ctx := by
  induction e with
  | literal v => rfl
  | ref a => rfl
  | compare op l r left right =>
    rw [inquiry, Inquiry.run_bind, value_compare, left]
    simp only [Inquiry.run_bind, right]
    rfl
  | and es each =>
    rw [inquiry, Inquiry.run_map, run_connectiveInquiry false es each]
    rfl
  | or es each =>
    rw [inquiry, Inquiry.run_map, run_connectiveInquiry true es each]
    rfl
  | not e operand =>
    rw [inquiry, Inquiry.run_map, operand]
    rfl
  | call f es each =>
    by_cases test : f = .isPresent
    · subst test
      funext c
      by_cases single : ∃ a, es = [ref a]
      · obtain ⟨a, rfl⟩ := single
        rw [value_presence]
        rfl
      · rw [value_presence_malformed ctx single]
        simp only [inquiry, if_true]
        split
        · exact absurd ⟨_, rfl⟩ single
        · rfl
    · simp only [inquiry, if_neg test]
      rw [Inquiry.run_bind, value_call ctx test, run_valuesInquiry es each]
      rfl

def inquiryIfPresent : Option Expression → Inquiry (Except Reason Bool)
  | none => .done (.ok true)
  | some e => e.inquiry.map fun v => v.bind AttributeValue.truth

theorem run_inquiryIfPresent (e : Option Expression) :
    (inquiryIfPresent e).run ctx = holdsIfPresent ctx e := by
  cases e with
  | none => rfl
  | some e =>
    rw [inquiryIfPresent, Inquiry.run_map, run_inquiry]
    rfl

end Expression

def Rule.inquiry (r : Rule) : Inquiry Outcome :=
  ((Expression.inquiryIfPresent r.target).bind fun b =>
    if b then Expression.inquiryIfPresent r.condition else .done (.ok false)).map r.outcome

theorem Rule.run_inquiry {ctx : Context} (r : Rule) : r.inquiry.run ctx = r.evaluate ctx := by
  have condition (b : Bool) :
      (if b then Expression.inquiryIfPresent r.condition else .done (.ok false)).run ctx =
        if b then holdsIfPresent ctx r.condition else fun c => (.ok false, c) := by
    cases b with
    | false => rfl
    | true => exact Expression.run_inquiryIfPresent r.condition
  rw [inquiry, evaluate_eq, Inquiry.run_map, Inquiry.run_bind, Expression.run_inquiryIfPresent,
    funext condition]
  rfl

namespace Policy

mutual

def inquiry : Policy → Inquiry Outcome
  | rule r => .visit r.inquiry
  | set h ps => .visit ((Expression.inquiryIfPresent h.target).andThen fun
    | .error e => .done (targetFailure (set h ps) e)
    | .ok false => .done .notApplicable
    | .ok true =>
      (childrenInquiry h.algorithm ps).map fun os => h.addObligations (h.algorithm.reduce h.id os))

def childrenInquiry (a : Algorithm) : List Policy → Inquiry (List Outcome)
  | [] => .done []
  | p :: ps => p.inquiry.andThen fun o =>
    if a.settles o.decision then .done [o] else (childrenInquiry a ps).map (o :: ·)

end

variable {ctx : Context}

theorem run_childrenInquiry (a : Algorithm) (ps : List Policy)
    (each : ∀ p ∈ ps, p.inquiry.run ctx = p.evaluate ctx) :
    (childrenInquiry a ps).run ctx = evaluateChildren ctx a ps := by
  induction ps with
  | nil => rfl
  | cons p ps ih =>
    obtain ⟨head, tail⟩ := List.forall_mem_cons.mp each
    have rest := ih tail
    rw [childrenInquiry, Inquiry.run_andThen, evaluateChildren_cons, head]
    congr 1
    funext o
    cases a.settles o.decision with
    | true => rfl
    | false => simp only [Bool.false_eq_true, if_false, Inquiry.run_map, rest]

theorem run_inquiry (p : Policy) : p.inquiry.run ctx = p.evaluate ctx := by
  induction p with
  | rule r =>
    funext c
    rw [inquiry, Inquiry.run, r.run_inquiry, evaluate]
  | set h ps each =>
    funext c
    rw [inquiry, Inquiry.run, Inquiry.run_andThen, Expression.run_inquiryIfPresent, evaluate_set]
    congr 1
    funext b
    rcases b with e | _ | _
    · rfl
    · rfl
    · simp only [Inquiry.run_map, run_childrenInquiry h.algorithm ps each]

end Policy

namespace Obligation

def assignInquiry : List AssignmentRule → Inquiry (Except Reason (List Assignment))
  | [] => .done (.ok [])
  | a :: as => a.value.inquiry.bind fun v =>
    (assignInquiry as).bind fun rest => .done (.ok (⟨a.name, v⟩ :: rest))

def fulfillInquiry : List Obligation → Inquiry (Except Reason (List FulfilledObligation))
  | [] => .done (.ok [])
  | o :: os => ((assignInquiry o.assignments).map o.blame).bind fun as =>
    (fulfillInquiry os).bind fun rest => .done (.ok (⟨o.id, as⟩ :: rest))

variable {ctx : Context}

theorem run_assignInquiry (as : List AssignmentRule) : (assignInquiry as).run ctx = assign ctx as := by
  induction as with
  | nil => rfl
  | cons a as ih =>
    rw [assignInquiry, Inquiry.run_bind, assign_cons, Expression.run_inquiry]
    simp only [Inquiry.run_bind, ih]
    rfl

theorem run_fulfillInquiry (os : List Obligation) : (fulfillInquiry os).run ctx = fulfill ctx os := by
  induction os with
  | nil => rfl
  | cons o os ih =>
    rw [fulfillInquiry, Inquiry.run_bind, fulfill_cons, Inquiry.run_map, run_assignInquiry]
    simp only [Inquiry.run_bind, ih]
    rfl

end Obligation

def Outcome.inquiry (o : Outcome) : Inquiry Response :=
  match o.decision.effect? with
  | none => .done (.bare o.decision)
  | some e => (Obligation.fulfillInquiry o.obligations).map (o.answer e)

theorem Outcome.run_inquiry {ctx : Context} (o : Outcome) : o.inquiry.run ctx = o.respond ctx := by
  funext c
  unfold inquiry
  cases effect : o.decision.effect? with
  | none =>
    rw [respond_bare ctx effect]
    rfl
  | some e =>
    rw [respond_effect ctx effect]
    simp only [Inquiry.run_map, Obligation.run_fulfillInquiry]

def Policy.respondInquiry (p : Policy) : Inquiry Response := p.inquiry.andThen Outcome.inquiry

theorem Policy.run_respondInquiry (ctx : Context) (p : Policy) :
    p.respondInquiry.run ctx .empty = p.respond ctx := by
  rw [respondInquiry, Inquiry.run_andThen, run_inquiry]
  simp only [Outcome.run_inquiry]
  rfl

end AccessControl
