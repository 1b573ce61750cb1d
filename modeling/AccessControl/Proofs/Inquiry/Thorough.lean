import AccessControl.Proofs.Inquiry.Walk

namespace AccessControl

def Fails (v : Except Reason AttributeValue) : Prop := ∃ r, v = .error r

def HasTruth (b : Bool) (v : Except Reason AttributeValue) : Prop := v.bind AttributeValue.truth = .ok b

namespace Expression

mutual

/-- In an evaluation from this cache no operand and no argument is skipped for what one before it gives,
and each test for presence is of one reference. -/
def Thorough (ctx : Context) : Expression → Cache → Prop
  | literal _, _ => True
  | ref _, _ => True
  | compare _ l r, c => l.Thorough ctx c ∧ ¬Fails (l.value ctx c).1 ∧ r.Thorough ctx (l.value ctx c).2
  | and es, c => ThoroughUntil ctx (HasTruth false) es c
  | or es, c => ThoroughUntil ctx (HasTruth true) es c
  | not e, c => e.Thorough ctx c
  | call f es, c => if f = .isPresent then ∃ a, es = [ref a] else ThoroughUntil ctx Fails es c

def ThoroughUntil (ctx : Context) (ends : Except Reason AttributeValue → Prop) :
    List Expression → Cache → Prop
  | [], _ => True
  | e :: es, c =>
    e.Thorough ctx c ∧ (es ≠ [] → ¬ends (e.value ctx c).1) ∧ ThoroughUntil ctx ends es (e.value ctx c).2

end

variable {ctx : Context}

theorem connectiveInquiry_thorough (settling : Bool) (es : List Expression)
    (each : ∀ e ∈ es, ∀ c, e.Thorough ctx c → e.inquiry.lookups ctx c = e.attributes) {c : Cache}
    (thorough : ThoroughUntil ctx (HasTruth settling) es c) :
    (connectiveInquiry settling es).lookups ctx c = attributesOf es := by
  induction es generalizing c with
  | nil => rfl
  | cons e es ih =>
    obtain ⟨head, tail⟩ := List.forall_mem_cons.mp each
    obtain ⟨first, unsettled, later⟩ := thorough
    have rest := ih tail later
    rw [connectiveInquiry, Inquiry.lookups_andThen, head c first, run_inquiry, attributesOf]
    congr 1
    cases truth : (e.value ctx c).1.bind AttributeValue.truth with
    | error r => exact (Inquiry.lookups_map ctx _ _ _).trans rest
    | ok b =>
      by_cases settles : b = settling
      · subst settles
        have last : es = [] := by
          by_contra more
          exact unsettled more truth
        rw [last]
        simp [Inquiry.lookups, attributesOf]
      · simp only [settles, if_false]
        exact rest

theorem valuesInquiry_thorough (es : List Expression)
    (each : ∀ e ∈ es, ∀ c, e.Thorough ctx c → e.inquiry.lookups ctx c = e.attributes) {c : Cache}
    (thorough : ThoroughUntil ctx Fails es c) : (valuesInquiry es).lookups ctx c = attributesOf es := by
  induction es generalizing c with
  | nil => rfl
  | cons e es ih =>
    obtain ⟨head, tail⟩ := List.forall_mem_cons.mp each
    obtain ⟨first, unfailed, later⟩ := thorough
    have rest := ih tail later
    rw [valuesInquiry, Inquiry.lookups_bind, head c first, run_inquiry, attributesOf]
    congr 1
    cases result : (e.value ctx c).1 with
    | error r =>
      have last : es = [] := by
        by_contra more
        exact unfailed more ⟨r, result⟩
      rw [last]
      rfl
    | ok v => exact (Inquiry.lookups_bind_done ctx _ _ _).trans rest

theorem thorough_lookups (e : Expression) {c : Cache} (thorough : e.Thorough ctx c) :
    e.inquiry.lookups ctx c = e.attributes := by
  induction e generalizing c with
  | literal v => rfl
  | ref a => rfl
  | compare op l r left right =>
    obtain ⟨first, unfailed, second⟩ := thorough
    rw [inquiry, Inquiry.lookups_bind, left first, run_inquiry, attributes]
    congr 1
    cases result : (l.value ctx c).1 with
    | error r => exact absurd ⟨r, result⟩ unfailed
    | ok a => exact (Inquiry.lookups_bind_done ctx _ _ _).trans (right second)
  | and es each =>
    have operands := connectiveInquiry_thorough false es (fun e member c => each e member) thorough
    exact (Inquiry.lookups_map ctx _ _ c).trans operands
  | or es each =>
    have operands := connectiveInquiry_thorough true es (fun e member c => each e member) thorough
    exact (Inquiry.lookups_map ctx _ _ c).trans operands
  | not e operand => exact (Inquiry.lookups_map ctx _ _ c).trans (operand thorough)
  | call f es each =>
    unfold Thorough at thorough
    by_cases test : f = .isPresent
    · rw [if_pos test] at thorough
      obtain ⟨a, rfl⟩ := thorough
      simp only [inquiry, if_pos test]
      rfl
    · rw [if_neg test] at thorough
      have args := valuesInquiry_thorough es (fun e member c => each e member) thorough
      simp only [inquiry, if_neg test]
      exact (Inquiry.lookups_bind_done ctx _ _ c).trans args

end Expression

/-- The look-ups of an expression, for its value and for its truth alike, are some of the attributes that it
refers to, in the same order, and all of them if nothing is skipped. The look-ups for a response are some
of the attributes that the tree refers to, each node in front of its children, and then of those of the
obligations that it passes on; and the resolver is called for the unbound ones among them, each where it
first occurs. -/
theorem lookups_in_order (ctx : Context) :
    (∀ (e : Expression) (c : Cache),
      e.inquiry.run ctx c = e.value ctx c ∧ e.truthInquiry.run ctx c = e.holds ctx c ∧
      e.truthInquiry.lookups ctx c = e.inquiry.lookups ctx c ∧
      (e.inquiry.lookups ctx c).Sublist e.attributes ∧
      (e.Thorough ctx c → e.inquiry.lookups ctx c = e.attributes)) ∧
    ∀ p : Policy,
      let lookups := p.respondInquiry.lookups ctx .empty
      p.respondInquiry.run ctx .empty = p.respond ctx ∧
      lookups.Sublist (p.attributes ++ Obligation.attributes (p.evaluate ctx .empty).1.obligations) ∧
      (p.respond ctx).2.calls = (ctx.request.unbound lookups).eraseDups := by
  constructor
  · intro e c
    exact ⟨congrFun e.run_inquiry c, congrFun e.run_truthInquiry c, Inquiry.lookups_map ctx _ _ c,
      e.inquiry_walks.lookups ctx c, e.thorough_lookups⟩
  · intro p lookups
    refine ⟨p.run_respondInquiry ctx, p.respondInquiry_lookups ctx .empty, ?_⟩
    rw [← p.run_respondInquiry ctx]
    exact p.respondInquiry.calls_eq

theorem lookups_in_order_document :
    let owner : AttributeId := ⟨.resource, "owner", .string, .single⟩
    let isPublic : AttributeId := ⟨.resource, "public", .boolean, .single⟩
    let locked : AttributeId := ⟨.resource, "locked", .boolean, .single⟩
    let e : Expression :=
      .and [.call .isPresent [.ref owner], .or [.ref isPublic, .ref locked], .ref isPublic]
    let p : Policy := .rule ⟨"readers", some e, some (.ref locked), .permit, []⟩
    let ctx : Context := ⟨.new "ann" "read" "doc1" ⟨2025, 1, 8, 10, 0, 0, 0, by decide⟩, .ofFunction fun a =>
      if a = owner then .ok (some (.simple (.string "ann"))) else .ok (some (.ofBool (a = locked)))⟩
    e.Thorough ctx .empty ∧ e.inquiry.lookups ctx .empty = [owner, isPublic, locked, isPublic] ∧
      (p.respond ctx).2.calls = [owner, isPublic, locked] ∧
      (ctx.request.unbound (p.respondInquiry.lookups ctx .empty)).eraseDups = [owner, isPublic, locked] := by
  intro owner isPublic locked e p ctx
  have present : ((Expression.call .isPresent [.ref owner]).holds ctx .empty).1 ≠ .ok false := by
    rintro ⟨⟩
  have thorough : e.Thorough ctx .empty := by
    refine ⟨⟨owner, rfl⟩, fun _ => present,
      ⟨trivial, fun _ => ?_, trivial, fun more => (more rfl).elim, trivial⟩,
      fun _ => ?_, trivial, fun more => (more rfl).elim, trivial⟩
    · rintro ⟨⟩
    · rintro ⟨⟩
  obtain ⟨_, _, _, _, all⟩ := (lookups_in_order ctx).1 e .empty
  have calls : (p.respond ctx).2.calls = [owner, isPublic, locked] := rfl
  exact ⟨thorough, all thorough, calls, ((lookups_in_order ctx).2 p).2.2.symm.trans calls⟩

end AccessControl
