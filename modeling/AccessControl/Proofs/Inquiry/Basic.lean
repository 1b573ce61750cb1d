import AccessControl.Proofs.Cache.Reads

namespace AccessControl

/-- A computation that looks up attributes and visits nodes on its way to a result. -/
inductive Inquiry (α : Type) where
  | done (a : α)
  | look (a : AttributeId) (next : Except Reason AttributeValue → Inquiry α)
  | visit (next : Inquiry α)

namespace Inquiry

variable {α β : Type}

def andThen : Inquiry α → (α → Inquiry β) → Inquiry β
  | done a, g => g a
  | look a next, g => look a fun v => (next v).andThen g
  | visit next, g => visit (next.andThen g)

def bind (q : Inquiry (Except Reason α)) (g : α → Inquiry (Except Reason β)) : Inquiry (Except Reason β) :=
  q.andThen fun
    | .error r => done (.error r)
    | .ok a => g a

def map (h : α → β) (q : Inquiry α) : Inquiry β := q.andThen fun a => done (h a)

variable (ctx : Context)

def run : Inquiry α → Cache → α × Cache
  | done a, c => (a, c)
  | look a next, c => (next (c.lookup ctx a).1).run (c.lookup ctx a).2
  | visit next, c => next.run c.visitNode

def lookups : Inquiry α → Cache → List AttributeId
  | done _, _ => []
  | look a next, c => a :: (next (c.lookup ctx a).1).lookups (c.lookup ctx a).2
  | visit next, c => next.lookups c.visitNode

@[simp] theorem run_andThen (q : Inquiry α) (g : α → Inquiry β) :
    (q.andThen g).run ctx = Cache.andThen (q.run ctx) fun a => (g a).run ctx := by
  funext c
  induction q generalizing c with
  | done a => rfl
  | look a next each => exact each _ _
  | visit next ih => exact ih _

@[simp] theorem run_bind (q : Inquiry (Except Reason α)) (g : α → Inquiry (Except Reason β)) :
    (q.bind g).run ctx = Cache.bind (q.run ctx) fun a => (g a).run ctx := by
  rw [bind, run_andThen, Cache.bind_eq_andThen]
  congr 1
  funext v
  cases v <;> rfl

@[simp] theorem run_map (h : α → β) (q : Inquiry α) :
    (q.map h).run ctx = fun c => (h (q.run ctx c).1, (q.run ctx c).2) := by
  rw [map, run_andThen]
  rfl

end Inquiry

end AccessControl
