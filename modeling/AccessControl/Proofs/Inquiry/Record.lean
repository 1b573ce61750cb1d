import AccessControl.Proofs.Inquiry.Basic

namespace AccessControl

def Request.unbound (r : Request) (as : List AttributeId) : List AttributeId :=
  as.filter fun a => (r.get? a).isNone

/-- What the counters have gained from one cache to the next: a call for every attribute that the resolver
was called for, a call or a hit for each of the look-ups, and the nodes. -/
structure Cache.Spends (c : Cache) (lookups nodes : Nat) (d : Cache) : Prop where
  calls : d.stats.resolverCalls + c.calls.length = c.stats.resolverCalls + d.calls.length
  lookups : d.stats.resolverCalls + d.stats.cacheHits = c.stats.resolverCalls + c.stats.cacheHits + lookups
  nodes : d.stats.nodesVisited = c.stats.nodesVisited + nodes

namespace Cache.Spends

theorem refl (c : Cache) : c.Spends 0 0 c := ⟨rfl, rfl, rfl⟩

theorem trans {c d e : Cache} {l l' n n' : Nat} (first : c.Spends l n d) (second : d.Spends l' n' e) :
    c.Spends (l + l') (n + n') e where
  calls := by
    have before := first.calls
    have after := second.calls
    omega
  lookups := by rw [second.lookups, first.lookups, Nat.add_assoc]
  nodes := by rw [second.nodes, first.nodes, Nat.add_assoc]

theorem visitNode (c : Cache) : c.Spends 0 1 c.visitNode := ⟨rfl, rfl, rfl⟩

theorem lookup (c : Cache) (ctx : Context) (a : AttributeId) :
    c.Spends (ctx.request.unbound [a]).length 0 (c.lookup ctx a).2 := by
  rcases c.lookup_cases ctx a with ⟨v, bound, step⟩ | ⟨answer, free, _, step⟩ | ⟨answer, _, free, _, step⟩
  · have none : ctx.request.unbound [a] = [] := by simp [Request.unbound, bound]
    rw [step, none]
    exact refl c
  · have one : ctx.request.unbound [a] = [a] := by simp [Request.unbound, free]
    rw [step, one]
    exact ⟨rfl, rfl, rfl⟩
  · have one : ctx.request.unbound [a] = [a] := by simp [Request.unbound, free]
    rw [step, one]
    exact ⟨by simp [learn]; omega, by simp [learn]; omega, rfl⟩

end Cache.Spends

namespace Inquiry

variable {α β : Type} (ctx : Context)

def visits : Inquiry α → Cache → Nat
  | done _, _ => 0
  | look a next, c => (next (c.lookup ctx a).1).visits (c.lookup ctx a).2
  | visit next, c => 1 + next.visits c.visitNode

@[simp] theorem lookups_andThen (q : Inquiry α) (g : α → Inquiry β) (c : Cache) :
    (q.andThen g).lookups ctx c = q.lookups ctx c ++ (g (q.run ctx c).1).lookups ctx (q.run ctx c).2 := by
  induction q generalizing c with
  | done a => rfl
  | look a next each => exact congrArg (a :: ·) (each _ _)
  | visit next ih => exact ih _

@[simp] theorem lookups_map (h : α → β) (q : Inquiry α) (c : Cache) :
    (q.map h).lookups ctx c = q.lookups ctx c := by
  rw [map, lookups_andThen, lookups, List.append_nil]

theorem lookups_bind (q : Inquiry (Except Reason α)) (g : α → Inquiry (Except Reason β)) (c : Cache) :
    (q.bind g).lookups ctx c = q.lookups ctx c ++
      match (q.run ctx c).1 with
      | .error _ => []
      | .ok a => (g a).lookups ctx (q.run ctx c).2 := by
  rw [bind, lookups_andThen]
  cases (q.run ctx c).1 <;> rfl

@[simp] theorem lookups_bind_done (q : Inquiry (Except Reason α)) (g : α → Except Reason β) (c : Cache) :
    (q.bind fun a => .done (g a)).lookups ctx c = q.lookups ctx c := by
  rw [lookups_bind]
  cases (q.run ctx c).1 <;> exact List.append_nil _

@[simp] theorem visits_andThen (q : Inquiry α) (g : α → Inquiry β) (c : Cache) :
    (q.andThen g).visits ctx c = q.visits ctx c + (g (q.run ctx c).1).visits ctx (q.run ctx c).2 := by
  induction q generalizing c with
  | done a => exact (Nat.zero_add _).symm
  | look a next each => exact each _ _
  | visit next ih => rw [andThen, visits, ih, visits, run, Nat.add_assoc]

@[simp] theorem visits_map (h : α → β) (q : Inquiry α) (c : Cache) :
    (q.map h).visits ctx c = q.visits ctx c := by
  rw [map, visits_andThen, visits, Nat.add_zero]

theorem run_spends (q : Inquiry α) (c : Cache) :
    c.Spends (ctx.request.unbound (q.lookups ctx c)).length (q.visits ctx c) (q.run ctx c).2 := by
  induction q generalizing c with
  | done a => exact .refl c
  | look a next each =>
    have spent := (Cache.Spends.lookup c ctx a).trans (each (c.lookup ctx a).1 (c.lookup ctx a).2)
    rw [Nat.zero_add, ← List.length_append, Request.unbound, Request.unbound, ← List.filter_append] at spent
    exact spent
  | visit next ih =>
    have spent := (Cache.Spends.visitNode c).trans (ih c.visitNode)
    rw [Nat.zero_add] at spent
    exact spent

variable {ctx}

theorem run_logged (q : Inquiry α) {c : Cache} (logged : Cache.Logged ctx c) :
    Cache.Logged ctx (q.run ctx c).2 := by
  induction q generalizing c with
  | done a => exact logged
  | look a next each => exact each _ (logged.lookup a)
  | visit next ih => exact ih ⟨logged.nodup, logged.answered, logged.given⟩

theorem new_cons {known : List AttributeId} {a : AttributeId} (fresh : a ∉ known) (as : List AttributeId) :
    known ++ ((a :: as).filter fun b => !known.contains b).eraseDups =
      (known ++ [a]) ++ (as.filter fun b => !(known ++ [a]).contains b).eraseDups := by
  have both : (fun b => !(known ++ [a]).contains b) = fun b => !(b == a) && !known.contains b := by
    funext b
    rw [List.contains_append, Bool.not_or, Bool.and_comm, List.contains_cons, List.contains_nil,
      Bool.or_false]
  rw [List.filter_cons_of_pos (by simp [fresh]), List.eraseDups_cons, List.filter_filter, both,
    List.append_assoc, List.singleton_append]

theorem calls_eq_of_logged (q : Inquiry α) {c : Cache} (logged : Cache.Logged ctx c) :
    (q.run ctx c).2.calls =
      c.calls ++ ((ctx.request.unbound (q.lookups ctx c)).filter fun a => !c.calls.contains a).eraseDups := by
  induction q generalizing c with
  | done a => simp [run, lookups, Request.unbound]
  | look a next each =>
    have later := each (c.lookup ctx a).1 (logged.lookup a)
    rw [run, lookups, later]
    -- a look-up makes a call exactly if the attribute is free and was not called for before
    rcases c.lookup_cases ctx a with ⟨v, bound, step⟩ | ⟨answer, free, known, step⟩ |
      ⟨answer, _, free, fresh, step⟩
    all_goals rw [step]
    · simp [Request.unbound, bound]
    · have called : a ∈ c.calls := (logged.answered a).mpr ⟨answer, known⟩
      simp [Request.unbound, free, called, Cache.hit]
    · have uncalled : a ∉ c.calls := by simp [logged.answered, fresh]
      rw [Request.unbound, Request.unbound, List.filter_cons_of_pos (by simp [free]), new_cons uncalled]
      rfl
  | visit next ih => exact ih ⟨logged.nodup, logged.answered, logged.given⟩

theorem calls_eq (q : Inquiry α) :
    (q.run ctx .empty).2.calls = (ctx.request.unbound (q.lookups ctx .empty)).eraseDups := by
  rw [q.calls_eq_of_logged (Cache.Logged.empty ctx), List.filter_eq_self.mpr (by simp [Cache.empty])]
  rfl

end Inquiry

end AccessControl
