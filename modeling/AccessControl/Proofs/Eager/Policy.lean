import AccessControl.DecisionPoint
import AccessControl.Proofs.Combine.Table
import AccessControl.Proofs.Eager.Expression

namespace AccessControl

def Expression.eagerIfPresent (val : Valuation) : Option Expression → Except Reason Bool
  | none => .ok true
  | some e => e.eagerTruth val

def Rule.outcome (r : Rule) : Except Reason Bool → Outcome
  | .error e => .indeterminate (.ofEffect r.effect) e
  | .ok false => .notApplicable
  | .ok true => ⟨.ofEffect r.effect, r.obligations.filter fun o => o.fulfillOn = r.effect⟩

def Rule.eager (val : Valuation) (r : Rule) : Outcome :=
  r.outcome ((Expression.eagerIfPresent val r.target).bind fun b =>
    if b then Expression.eagerIfPresent val r.condition else .ok false)

/-- The outcome with those obligations of a set that are for the effect it decides. -/
def Outcome.withOwn (own : List Obligation) (o : Outcome) : Outcome :=
  ⟨o.decision, o.obligations ++ own.filter fun x => some x.fulfillOn = o.decision.effect?⟩

namespace Policy

def targeted (p : Policy) (reached : Outcome) : Except Reason Bool → Outcome
  | .error e =>
    match p.possibleEffects with
    | some x => .indeterminate x e
    | none => .notApplicable
  | .ok false => .notApplicable
  | .ok true => reached

mutual

def eager (val : Valuation) : Policy → Outcome
  | rule r => r.eager val
  | set h ps =>
    targeted (set h ps) ((h.algorithm.table h.id (eagerAll val ps)).withOwn h.obligations)
      (Expression.eagerIfPresent val h.target)

def eagerAll (val : Valuation) : List Policy → List Outcome
  | [] => []
  | p :: ps => p.eager val :: eagerAll val ps

end

theorem eagerAll_eq_map (val : Valuation) (ps : List Policy) : eagerAll val ps = ps.map (eager val) := by
  induction ps with
  | nil => rfl
  | cons p ps ih => rw [eagerAll, ih, List.map_cons]

end Policy

namespace Obligation

def eagerAssign (val : Valuation) (as : List AssignmentRule) : Except Reason (List Assignment) :=
  as.mapM fun a => (a.value.eager val).map (Assignment.mk a.name)

def blame {α : Type} (o : Obligation) : Except Reason α → Except Reason α
  | .ok a => .ok a
  | .error r => .error (.obligationFailed o.id r)

def eagerFulfill (val : Valuation) (os : List Obligation) : Except Reason (List FulfilledObligation) :=
  os.mapM fun o => (o.blame (eagerAssign val o.assignments)).map (FulfilledObligation.mk o.id)

end Obligation

def Outcome.answer (o : Outcome) (e : Effect) : Except Reason (List FulfilledObligation) → Response
  | .ok os => ⟨o.decision, os⟩
  | .error r => .bare (.indeterminate (.ofEffect e) r)

def Outcome.eagerRespond (val : Valuation) (o : Outcome) : Response :=
  match o.decision.effect? with
  | none => .bare o.decision
  | some e => o.answer e (Obligation.eagerFulfill val o.obligations)

def Policy.eagerRespond (val : Valuation) (p : Policy) : Response := (p.eager val).eagerRespond val

open Cache (Agrees Reads)

variable {s : Snapshot} {ctx : Context}

theorem holdsIfPresent_reads (e : Option Expression) :
    Reads s ctx (Expression.attributesIfPresent e) (holdsIfPresent ctx e)
      (Expression.eagerIfPresent (ctx.request.read s) e) := by
  cases e with
  | none => exact .skip [] _
  | some e => exact e.value_reads.map fun v => v.bind AttributeValue.truth

theorem Obligation.forEffect_eq (os : List Obligation) (e : Effect) :
    forEffect os e = os.filter fun o => o.fulfillOn = e := rfl

theorem SetHeader.addObligations_eq (h : SetHeader) (o : Outcome) :
    h.addObligations o = o.withOwn h.obligations := by
  unfold addObligations Outcome.withOwn
  cases o.decision.effect? with
  | none => simp
  | some e => simp [Obligation.forEffect_eq]

theorem Policy.targeted_error (p : Policy) (o : Outcome) (r : Reason) :
    p.targeted o (.error r) = p.targetFailure r := rfl

theorem Policy.eager_set (val : Valuation) (h : SetHeader) (ps : List Policy) :
    (set h ps).eager val =
      targeted (set h ps) (h.addObligations (h.algorithm.table h.id (eagerAll val ps)))
        (Expression.eagerIfPresent val h.target) := by
  rw [eager, h.addObligations_eq]

theorem Rule.evaluate_eq (ctx : Context) (r : Rule) :
    r.evaluate ctx = Cache.andThen
      (Cache.bind (holdsIfPresent ctx r.target) fun b =>
        if b then holdsIfPresent ctx r.condition else fun c => (.ok false, c))
      fun b c => (r.outcome b, c) := by
  funext c
  rcases first : holdsIfPresent ctx r.target c with ⟨_ | _ | _, d⟩
  · simp only [evaluate, Cache.andThen, Cache.bind, first, outcome]
  · simp [evaluate, Cache.andThen, Cache.bind, first, outcome]
  · rcases second : holdsIfPresent ctx r.condition d with ⟨_ | _ | _, _⟩ <;>
      simp [evaluate, Cache.andThen, Cache.bind, first, second, outcome, Obligation.forEffect_eq]

theorem Rule.evaluate_reads (r : Rule) :
    Reads s ctx r.attributes (r.evaluate ctx) (r.eager (ctx.request.read s)) := by
  rw [r.evaluate_eq]
  refine Reads.map (Reads.bind (holdsIfPresent_reads r.target) fun b => ?_) r.outcome
  cases b with
  | false => exact .skip _ _
  | true => exact holdsIfPresent_reads r.condition

namespace Policy

theorem evaluateChildren_cons (ctx : Context) (a : Algorithm) (p : Policy) (ps : List Policy) :
    evaluateChildren ctx a (p :: ps) = Cache.andThen (p.evaluate ctx) fun o =>
      if a.settles o.decision then fun c => ([o], c)
      else fun c => (o :: (evaluateChildren ctx a ps c).1, (evaluateChildren ctx a ps c).2) := by
  funext c
  rcases first : p.evaluate ctx c with ⟨o, d⟩
  cases settles : a.settles o.decision <;> simp [evaluateChildren, Cache.andThen, first, settles]

theorem evaluateChildren_reads (a : Algorithm) (ps : List Policy)
    (each : ∀ p ∈ ps, Reads s ctx p.attributes (p.evaluate ctx) (p.eager (ctx.request.read s))) :
    Reads s ctx (attributesOf ps) (evaluateChildren ctx a ps)
      (a.pulled (eagerAll (ctx.request.read s) ps)) := by
  induction ps with
  | nil => exact .skip [] _
  | cons p ps ih =>
    obtain ⟨head, tail⟩ := List.forall_mem_cons.mp each
    rw [evaluateChildren_cons]
    refine head.andThen (y := fun o => a.pulled (o :: eagerAll _ ps)) fun o => ?_
    rw [Algorithm.pulled]
    cases a.settles o.decision with
    | true => exact .skip _ _
    | false => exact (ih tail).map (o :: ·)

theorem evaluate_set (ctx : Context) (h : SetHeader) (ps : List Policy) (c : Cache) :
    (set h ps).evaluate ctx c = Cache.andThen (holdsIfPresent ctx h.target)
      (fun b c =>
        match b with
        | .error e => (targetFailure (set h ps) e, c)
        | .ok false => (.notApplicable, c)
        | .ok true =>
          (h.addObligations (h.algorithm.reduce h.id (evaluateChildren ctx h.algorithm ps c).1),
            (evaluateChildren ctx h.algorithm ps c).2)) c.visitNode := by
  rcases first : holdsIfPresent ctx h.target c.visitNode with ⟨_ | _ | _, d⟩ <;>
    simp only [evaluate, Cache.andThen, first]

theorem evaluate_reads (p : Policy) :
    Reads s ctx p.attributes (p.evaluate ctx) (p.eager (ctx.request.read s)) := by
  induction p with
  | rule r => exact r.evaluate_reads.visit
  | set h ps each =>
    have children := evaluateChildren_reads h.algorithm ps each
    have reached := children.map fun os => h.addObligations (h.algorithm.reduce h.id os)
    have combined := h.algorithm.combine_eq_table h.id (eagerAll (ctx.request.read s) ps)
    rw [Algorithm.combine] at combined
    rw [combined] at reached
    rw [funext (evaluate_set ctx h ps), eager_set, attributes]
    refine Reads.visit ((holdsIfPresent_reads h.target).andThen fun b => ?_)
    rcases b with e | _ | _
    · exact .skip _ _
    · exact .skip _ _
    · exact reached

theorem evaluate_trace (ctx : Context) (p : Policy) (c : Cache) :
    Cache.Trace ctx p.attributes c (p.evaluate ctx c).2 :=
  (@evaluate_reads (fun _ => .missing) ctx p).trace c

end Policy

namespace Obligation

theorem eagerAssign_cons (val : Valuation) (a : AssignmentRule) (as : List AssignmentRule) :
    eagerAssign val (a :: as) = (a.value.eager val).bind fun v =>
      (eagerAssign val as).bind fun rest => .ok (⟨a.name, v⟩ :: rest) := by
  rw [eagerAssign, mapM_cons_except]
  cases a.value.eager val <;> rfl

theorem assign_cons (ctx : Context) (a : AssignmentRule) (as : List AssignmentRule) :
    assign ctx (a :: as) = Cache.bind (a.value.value ctx) fun v =>
      Cache.bind (assign ctx as) fun rest c => (.ok (⟨a.name, v⟩ :: rest), c) := by
  funext c
  rcases first : a.value.value ctx c with ⟨_ | v, d⟩
  · simp only [assign, Cache.bind, first]
  · rcases rest : assign ctx as d with ⟨_ | vs, _⟩ <;> simp only [assign, Cache.bind, first, rest]

theorem assign_reads (as : List AssignmentRule) :
    Reads s ctx (as.flatMap fun a => a.value.attributes) (assign ctx as)
      (eagerAssign (ctx.request.read s) as) := by
  induction as with
  | nil => exact .skip [] _
  | cons a as ih =>
    rw [List.flatMap_cons, assign_cons, eagerAssign_cons]
    exact Reads.bind a.value.value_reads fun v => ih.bind_apply fun rest => .ok (⟨a.name, v⟩ :: rest)

theorem attributes_cons (o : Obligation) (os : List Obligation) :
    attributes (o :: os) = (o.assignments.flatMap fun a => a.value.attributes) ++ attributes os :=
  List.flatMap_cons

theorem eagerFulfill_cons (val : Valuation) (o : Obligation) (os : List Obligation) :
    eagerFulfill val (o :: os) = (o.blame (eagerAssign val o.assignments)).bind fun as =>
      (eagerFulfill val os).bind fun rest => .ok (⟨o.id, as⟩ :: rest) := by
  rw [eagerFulfill, mapM_cons_except]
  cases eagerAssign val o.assignments <;> rfl

theorem fulfill_cons (ctx : Context) (o : Obligation) (os : List Obligation) :
    fulfill ctx (o :: os) = Cache.bind
      (fun c => (o.blame (assign ctx o.assignments c).1, (assign ctx o.assignments c).2))
      fun as => Cache.bind (fulfill ctx os) fun rest c => (.ok (⟨o.id, as⟩ :: rest), c) := by
  funext c
  rcases first : assign ctx o.assignments c with ⟨_ | as, d⟩
  · simp only [fulfill, Cache.bind, first, blame]
  · rcases rest : fulfill ctx os d with ⟨_ | fs, _⟩ <;>
      simp only [fulfill, Cache.bind, first, rest, blame]

theorem fulfill_reads (os : List Obligation) :
    Reads s ctx (attributes os) (fulfill ctx os) (eagerFulfill (ctx.request.read s) os) := by
  induction os with
  | nil => exact .skip [] _
  | cons o os ih =>
    have head := (@assign_reads s ctx o.assignments).map o.blame
    rw [attributes_cons, fulfill_cons, eagerFulfill_cons]
    exact head.bind fun as => ih.bind_apply fun rest => .ok (⟨o.id, as⟩ :: rest)

end Obligation

theorem Outcome.respond_bare (ctx : Context) {o : Outcome} (none : o.decision.effect? = none) (c : Cache) :
    o.respond ctx c = (.bare o.decision, c) := by
  simp only [respond, none]

theorem Outcome.respond_effect (ctx : Context) {o : Outcome} {e : Effect}
    (decided : o.decision.effect? = some e) (c : Cache) :
    o.respond ctx c =
      (o.answer e (Obligation.fulfill ctx o.obligations c).1,
        (Obligation.fulfill ctx o.obligations c).2) := by
  simp only [respond, decided]
  rcases Obligation.fulfill ctx o.obligations c with ⟨r | os, d⟩ <;> rfl

theorem Outcome.respond_reads (o : Outcome) :
    Reads s ctx (Obligation.attributes o.obligations) (o.respond ctx)
      (o.eagerRespond (ctx.request.read s)) := by
  unfold eagerRespond
  cases decided : o.decision.effect? with
  | none =>
    rw [funext (respond_bare ctx decided)]
    exact .skip _ _
  | some e =>
    rw [funext (respond_effect ctx decided)]
    exact (Obligation.fulfill_reads o.obligations).map (o.answer e)

theorem Policy.respond_trace (ctx : Context) (p : Policy) :
    Cache.Trace ctx (p.attributes ++ Obligation.attributes (p.evaluate ctx .empty).1.obligations) .empty
      (p.respond ctx).2 := by
  have obligations := @Outcome.respond_reads (fun _ => .missing) ctx (p.evaluate ctx .empty).1
  exact (p.evaluate_trace ctx .empty).trans (obligations.trace _)

theorem Policy.respond_eager (p : Policy) (agrees : Agrees s (p.respond ctx).2) :
    (p.respond ctx).1 = p.eagerRespond (ctx.request.read s) := by
  have respond := @Outcome.respond_reads s ctx (p.evaluate ctx .empty).1
  have before : Agrees s (p.evaluate ctx .empty).2 := agrees.of_trace (respond.trace _)
  rw [eagerRespond, ← p.evaluate_reads.result .empty before]
  exact respond.result _ agrees

theorem Policy.exists_eager (ctx : Context) (p : Policy) (c : Cache) :
    ∃ val, (p.evaluate ctx c).1 = p.eager val :=
  ⟨_, p.evaluate_reads.result c (p.evaluate ctx c).2.agrees_snapshot⟩

theorem Policy.evaluate_of_agrees (r : Request)
    {f : AttributeId → Except ResolverError (Option AttributeValue)} (p : Policy) {c : Cache}
    (agrees : Agrees (.ofFunction f) c) :
    (p.evaluate ⟨r, .ofFunction f⟩ c).1 = p.eager (r.read (.ofFunction f)) :=
  p.evaluate_reads.result c (agrees.trace_ofFunction (p.evaluate_trace _ c))

theorem Policy.evaluate_ofFunction (r : Request)
    (f : AttributeId → Except ResolverError (Option AttributeValue)) (p : Policy) :
    (p.evaluate ⟨r, .ofFunction f⟩ .empty).1 = p.eager (r.read (.ofFunction f)) :=
  p.evaluate_of_agrees r (Agrees.empty _)

theorem Policy.respond_ofFunction (r : Request)
    (f : AttributeId → Except ResolverError (Option AttributeValue)) (p : Policy) :
    (p.respond ⟨r, .ofFunction f⟩).1 = p.eagerRespond (r.read (.ofFunction f)) :=
  p.respond_eager ((Agrees.empty _).trace_ofFunction (p.respond_trace _))

theorem Policy.exists_eagerRespond (ctx : Context) (p : Policy) :
    ∃ val, (p.respond ctx).1 = p.eagerRespond val :=
  ⟨_, p.respond_eager (p.respond ctx).2.agrees_snapshot⟩

/-- For any resolver, even one that answers differently each time: no attribute is asked for twice,
and the response is the eager one under the answers that were given, whatever stands for the
attributes never asked for. -/
theorem Policy.respond_eq_eagerRespond (ctx : Context) (p : Policy) :
    (p.respond ctx).2.calls.Nodup ∧ ∀ rest : Snapshot,
      (p.respond ctx).1 =
        p.eagerRespond (ctx.request.read (ctx.snapshot (p.respond ctx).2.calls rest)) := by
  have logged := (Cache.Logged.empty ctx).of_trace (p.respond_trace ctx)
  exact ⟨logged.nodup, fun rest => p.respond_eager (logged.agrees rest)⟩

end AccessControl
