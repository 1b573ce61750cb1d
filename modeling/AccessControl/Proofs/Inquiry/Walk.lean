import AccessControl.Proofs.Inquiry.Evaluate
import AccessControl.Proofs.Inquiry.Record

namespace AccessControl

namespace Inquiry

variable {α β : Type} {as bs : List AttributeId} {m n : Nat}

/-- Every run looks up some of these attributes, in their order, and visits at most so many nodes. -/
structure Walks (as : List AttributeId) (n : Nat) (q : Inquiry α) : Prop where
  lookups : ∀ ctx c, (q.lookups ctx c).Sublist as
  visits : ∀ ctx c, q.visits ctx c ≤ n

namespace Walks

theorem done (as : List AttributeId) (n : Nat) (x : α) : (Inquiry.done x).Walks as n where
  lookups _ _ := List.nil_sublist as
  visits _ _ := Nat.zero_le n

theorem look (a : AttributeId) {next : Except Reason AttributeValue → Inquiry α}
    (each : ∀ v, (next v).Walks as n) : (Inquiry.look a next).Walks (a :: as) n where
  lookups ctx _ := ((each _).lookups ctx _).cons_cons a
  visits ctx _ := (each _).visits ctx _

theorem visit {q : Inquiry α} (walks : q.Walks as n) : (Inquiry.visit q).Walks as (1 + n) where
  lookups ctx c := walks.lookups ctx c.visitNode
  visits ctx c := Nat.add_le_add_left (walks.visits ctx c.visitNode) 1

theorem andThen {q : Inquiry α} {g : α → Inquiry β} (first : q.Walks as m) (second : ∀ a, (g a).Walks bs n) :
    (q.andThen g).Walks (as ++ bs) (m + n) where
  lookups ctx c := by
    rw [lookups_andThen]
    exact (first.lookups ctx c).append ((second _).lookups ctx _)
  visits ctx c := by
    rw [visits_andThen]
    exact Nat.add_le_add (first.visits ctx c) ((second _).visits ctx _)

theorem bind {q : Inquiry (Except Reason α)} {g : α → Inquiry (Except Reason β)} (first : q.Walks as m)
    (second : ∀ a, (g a).Walks bs n) : (q.bind g).Walks (as ++ bs) (m + n) := by
  refine first.andThen fun v => ?_
  cases v with
  | error r => exact .done bs n _
  | ok a => exact second a

theorem map {q : Inquiry α} (walks : q.Walks as n) (h : α → β) : (q.map h).Walks as n where
  lookups ctx c := by
    rw [lookups_map]
    exact walks.lookups ctx c
  visits ctx c := by
    rw [visits_map]
    exact walks.visits ctx c

theorem bind_done {q : Inquiry (Except Reason α)} (walks : q.Walks as n) (g : α → Except Reason β) :
    (q.bind fun a => .done (g a)).Walks as n := by
  have both := walks.bind fun a => Walks.done [] 0 (g a)
  rwa [List.append_nil] at both

end Walks

end Inquiry

open Inquiry (Walks)

namespace Expression

theorem connectiveInquiry_walks (settling : Bool) (es : List Expression)
    (each : ∀ e ∈ es, e.inquiry.Walks e.attributes 0) :
    (connectiveInquiry settling es).Walks (attributesOf es) 0 := by
  induction es with
  | nil => exact .done [] 0 _
  | cons e es ih =>
    obtain ⟨head, tail⟩ := List.forall_mem_cons.mp each
    refine head.andThen (n := 0) fun v => ?_
    cases v.bind AttributeValue.truth with
    | ok b =>
      by_cases settles : b = settling
      · simp only [settles, if_true]
        exact .done _ _ _
      · simp only [settles, if_false]
        exact ih tail
    | error r => exact (ih tail).map (past settling r)

theorem valuesInquiry_walks (es : List Expression) (each : ∀ e ∈ es, e.inquiry.Walks e.attributes 0) :
    (valuesInquiry es).Walks (attributesOf es) 0 := by
  induction es with
  | nil => exact .done [] 0 _
  | cons e es ih =>
    obtain ⟨head, tail⟩ := List.forall_mem_cons.mp each
    exact head.bind fun v => (ih tail).bind_done fun vs => .ok (v :: vs)

theorem inquiry_walks (e : Expression) : e.inquiry.Walks e.attributes 0 := by
  induction e with
  | literal v => exact .done [] 0 _
  | ref a => exact .look a fun v => .done [] 0 v
  | compare op l r left right =>
    exact left.bind fun a => right.bind_done fun b => (op.apply a b).map AttributeValue.ofBool
  | and es each => exact (connectiveInquiry_walks false es each).map _
  | or es each => exact (connectiveInquiry_walks true es each).map _
  | not e operand => exact operand.map _
  | call f es each =>
    unfold inquiry
    split
    · split
      · exact .look _ fun v => .done [] 0 _
      · exact .done _ _ _
    · exact (valuesInquiry_walks es each).bind_done f.apply

def truthInquiry (e : Expression) : Inquiry (Except Reason Bool) :=
  e.inquiry.map fun v => v.bind AttributeValue.truth

theorem run_truthInquiry {ctx : Context} (e : Expression) : e.truthInquiry.run ctx = e.holds ctx := by
  rw [truthInquiry, Inquiry.run_map, run_inquiry]
  rfl

theorem inquiryIfPresent_walks (e : Option Expression) :
    (inquiryIfPresent e).Walks (attributesIfPresent e) 0 := by
  cases e with
  | none => exact .done [] 0 _
  | some e => exact e.inquiry_walks.map _

end Expression

theorem Rule.inquiry_walks (r : Rule) : r.inquiry.Walks r.attributes 0 := by
  refine Walks.map (Walks.bind (n := 0) (Expression.inquiryIfPresent_walks r.target) fun b => ?_) r.outcome
  cases b with
  | false => exact .done _ _ _
  | true => exact Expression.inquiryIfPresent_walks r.condition

namespace Policy

theorem childrenInquiry_walks (a : Algorithm) (ps : List Policy)
    (each : ∀ p ∈ ps, p.inquiry.Walks p.attributes p.nodeCount) :
    (childrenInquiry a ps).Walks (attributesOf ps) (nodeCountOf ps) := by
  induction ps with
  | nil => exact .done [] 0 _
  | cons p ps ih =>
    obtain ⟨head, tail⟩ := List.forall_mem_cons.mp each
    refine head.andThen fun o => ?_
    cases a.settles o.decision with
    | true => exact .done _ _ _
    | false => exact (ih tail).map (o :: ·)

theorem inquiry_walks (p : Policy) : p.inquiry.Walks p.attributes p.nodeCount := by
  induction p with
  | rule r => exact r.inquiry_walks.visit
  | set h ps each =>
    rw [nodeCount, ← Nat.zero_add (nodeCountOf ps)]
    refine Walks.visit ((Expression.inquiryIfPresent_walks h.target).andThen fun b => ?_)
    rcases b with e | _ | _
    · exact .done _ _ _
    · exact .done _ _ _
    · exact (childrenInquiry_walks h.algorithm ps each).map _

end Policy

namespace Obligation

theorem assignInquiry_walks (as : List AssignmentRule) :
    (assignInquiry as).Walks (as.flatMap fun a => a.value.attributes) 0 := by
  induction as with
  | nil => exact .done [] 0 _
  | cons a as ih =>
    rw [List.flatMap_cons]
    exact a.value.inquiry_walks.bind fun v => ih.bind_done fun rest => .ok (⟨a.name, v⟩ :: rest)

theorem fulfillInquiry_walks (os : List Obligation) : (fulfillInquiry os).Walks (attributes os) 0 := by
  induction os with
  | nil => exact .done [] 0 _
  | cons o os ih =>
    rw [attributes_cons]
    exact Walks.bind ((assignInquiry_walks o.assignments).map o.blame) fun as =>
      ih.bind_done fun rest => .ok (⟨o.id, as⟩ :: rest)

end Obligation

theorem Outcome.inquiry_walks (o : Outcome) : o.inquiry.Walks (Obligation.attributes o.obligations) 0 := by
  unfold inquiry
  split
  · exact .done _ _ _
  · exact (Obligation.fulfillInquiry_walks o.obligations).map _

theorem Policy.respondInquiry_lookups (ctx : Context) (p : Policy) (c : Cache) :
    (p.respondInquiry.lookups ctx c).Sublist
      (p.attributes ++ Obligation.attributes (p.evaluate ctx c).1.obligations) := by
  rw [respondInquiry, Inquiry.lookups_andThen, run_inquiry]
  exact (p.inquiry_walks.lookups ctx c).append ((Outcome.inquiry_walks _).lookups ctx _)

end AccessControl
