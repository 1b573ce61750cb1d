import AccessControl.Proofs.Cache.Trace

namespace AccessControl

abbrev Snapshot := AttributeId → Answer

def Snapshot.ofFunction (f : AttributeId → Except ResolverError (Option AttributeValue)) : Snapshot :=
  fun a => .ofResolver (f a)

def Request.read (r : Request) (s : Snapshot) (a : AttributeId) : Except Reason AttributeValue :=
  match r.get? a with
  | some v => Answer.check a v
  | none => (s a).value a

/-- The answers to these calls, made one after the other, and `rest` for all other attributes. -/
def Context.snapshot (ctx : Context) (calls : List AttributeId) (rest : Snapshot) : Snapshot := fun a =>
  if a ∈ calls then .ofResolver (ctx.resolver ctx.request (calls.takeWhile (· ≠ a)) a) else rest a

namespace Cache

theorem lookup_cases (c : Cache) (ctx : Context) (a : AttributeId) :
    (∃ v, ctx.request.get? a = some v ∧ c.lookup ctx a = (Answer.check a v, c)) ∨
    (∃ answer, ctx.request.get? a = none ∧ c.answers.lookup a = some answer ∧
      c.lookup ctx a = (answer.value a, c.hit)) ∨
    (∃ answer, answer = Answer.ofResolver (ctx.resolver ctx.request c.calls a) ∧
      ctx.request.get? a = none ∧ c.answers.lookup a = none ∧
      c.lookup ctx a = (answer.value a, c.learn a answer)) := by
  cases bound : ctx.request.get? a with
  | some v => exact .inl ⟨v, rfl, by simp [lookup, bound]⟩
  | none =>
    cases known : c.answers.lookup a with
    | some answer => exact .inr (.inl ⟨answer, rfl, rfl, by simp [lookup, bound, known]⟩)
    | none => exact .inr (.inr ⟨_, rfl, rfl, rfl, by simp [lookup, bound, known]⟩)

theorem learn_lookup (c : Cache) (a b : AttributeId) (answer : Answer) :
    (c.learn a answer).answers.lookup b = if b = a then some answer else c.answers.lookup b := by
  simp only [learn, List.lookup_cons]
  split <;> simp_all

def Agrees (s : Snapshot) (c : Cache) : Prop :=
  ∀ a answer, c.answers.lookup a = some answer → s a = answer

def snapshot (c : Cache) : Snapshot := fun a => (c.answers.lookup a).getD .missing

theorem agrees_snapshot (c : Cache) : Agrees c.snapshot c := by
  intro a answer known
  rw [snapshot, known, Option.getD_some]

theorem Agrees.empty (s : Snapshot) : Agrees s .empty := by
  intro a answer known
  cases known

theorem Agrees.of_lookup {s : Snapshot} {ctx : Context} {c : Cache} {a : AttributeId}
    (agrees : Agrees s (c.lookup ctx a).2) : Agrees s c := by
  rcases c.lookup_cases ctx a with ⟨v, _, step⟩ | ⟨answer, _, _, step⟩ | ⟨answer, _, _, fresh, step⟩
  all_goals rw [step] at agrees
  · exact agrees
  · exact agrees
  · intro b old known
    have other : b ≠ a := by
      rintro rfl
      rw [fresh] at known
      cases known
    apply agrees b old
    rw [learn_lookup, if_neg other, known]

theorem Agrees.of_trace {s : Snapshot} {ctx : Context} {as : List AttributeId} {c d : Cache}
    (agrees : Agrees s d) (t : Trace ctx as c d) : Agrees s c := by
  induction t with
  | done c => exact agrees
  | skip a _ ih => exact ih agrees
  | look a _ ih => exact (ih agrees).of_lookup
  | visit _ ih => exact ih agrees

theorem Agrees.lookup_eq {s : Snapshot} {ctx : Context} {c : Cache} {a : AttributeId}
    (agrees : Agrees s (c.lookup ctx a).2) : (c.lookup ctx a).1 = ctx.request.read s a := by
  rcases c.lookup_cases ctx a with ⟨v, bound, step⟩ | ⟨answer, free, known, step⟩ |
    ⟨answer, _, free, _, step⟩
  all_goals rw [step] at agrees ⊢
  · simp only [Request.read, bound]
  · simp only [Request.read, free]
    rw [agrees a answer known]
  · simp only [Request.read, free]
    rw [agrees a answer (by rw [learn_lookup, if_pos rfl])]

/-- What the next look-up learns of an attribute: the kept answer, or else the one that the resolver
would give. -/
def outlook (c : Cache) (ctx : Context) : Snapshot := fun a =>
  (c.answers.lookup a).getD (.ofResolver (ctx.resolver ctx.request c.calls a))

theorem agrees_outlook (c : Cache) (ctx : Context) : Agrees (c.outlook ctx) c := by
  intro a answer known
  rw [outlook, known, Option.getD_some]

theorem lookup_outlook (c : Cache) (ctx : Context) (a : AttributeId) :
    (c.lookup ctx a).1 = ctx.request.read (c.outlook ctx) a := by
  rcases c.lookup_cases ctx a with ⟨v, bound, step⟩ | ⟨answer, free, known, step⟩ |
    ⟨answer, rfl, free, fresh, step⟩
  · simp only [step, Request.read, bound]
  · simp only [step, Request.read, free, outlook, known, Option.getD_some]
  · simp only [step, Request.read, free, outlook, fresh, Option.getD_none]

variable {f : AttributeId → Except ResolverError (Option AttributeValue)}

theorem outlook_lookup_ofFunction (c : Cache) (r : Request) (a : AttributeId) :
    (c.lookup ⟨r, .ofFunction f⟩ a).2.outlook ⟨r, .ofFunction f⟩ = c.outlook ⟨r, .ofFunction f⟩ := by
  rcases c.lookup_cases ⟨r, .ofFunction f⟩ a with ⟨v, _, step⟩ | ⟨answer, _, _, step⟩ |
    ⟨answer, rfl, _, fresh, step⟩
  all_goals rw [step]
  · rfl
  · funext b
    simp only [outlook, learn_lookup]
    split
    · rename_i same
      rw [same, fresh]
      rfl
    · rfl

theorem outlook_trace_ofFunction {r : Request} {as : List AttributeId} {c d : Cache}
    (t : Trace ⟨r, .ofFunction f⟩ as c d) :
    d.outlook ⟨r, .ofFunction f⟩ = c.outlook ⟨r, .ofFunction f⟩ := by
  refine t.invariant (P := fun d => d.outlook ⟨r, .ofFunction f⟩ = c.outlook ⟨r, .ofFunction f⟩) rfl ?_ ?_
  · exact fun d a _ same => (d.outlook_lookup_ofFunction r a).trans same
  · exact fun d same => same

theorem Agrees.lookup_ofFunction {r : Request} {c : Cache} (agrees : Agrees (.ofFunction f) c)
    (a : AttributeId) : Agrees (.ofFunction f) (c.lookup ⟨r, .ofFunction f⟩ a).2 := by
  rcases c.lookup_cases ⟨r, .ofFunction f⟩ a with ⟨v, _, step⟩ | ⟨answer, _, _, step⟩ |
    ⟨answer, given, _, _, step⟩
  all_goals rw [step]
  · exact agrees
  · exact agrees
  · intro b known found
    rw [learn_lookup] at found
    split at found
    · rename_i same
      cases found
      rw [same, given]
      rfl
    · exact agrees b known found

theorem Agrees.trace_ofFunction {r : Request} {as : List AttributeId} {c d : Cache}
    (agrees : Agrees (.ofFunction f) c) (t : Trace ⟨r, .ofFunction f⟩ as c d) :
    Agrees (.ofFunction f) d :=
  t.invariant agrees (fun _ a _ agrees => agrees.lookup_ofFunction a) fun _ agrees => agrees

/-- The calls are the attributes with an answer, each called once, and each answer is the one that
the resolver gave to its call. -/
structure Logged (ctx : Context) (c : Cache) : Prop where
  nodup : c.calls.Nodup
  answered : ∀ a, a ∈ c.calls ↔ ∃ answer, c.answers.lookup a = some answer
  given : ∀ a answer, c.answers.lookup a = some answer → ∃ before after,
    c.calls = before ++ a :: after ∧ answer = Answer.ofResolver (ctx.resolver ctx.request before a)

theorem Logged.empty (ctx : Context) : Logged ctx .empty where
  nodup := List.nodup_nil
  answered := by simp [Cache.empty]
  given := by simp [Cache.empty]

theorem Logged.learn {ctx : Context} {c : Cache} (logged : Logged ctx c) (a : AttributeId)
    (fresh : c.answers.lookup a = none) :
    Logged ctx (c.learn a (.ofResolver (ctx.resolver ctx.request c.calls a))) where
  nodup := by
    have uncalled : a ∉ c.calls := by simp [logged.answered, fresh]
    rw [Cache.learn, List.nodup_append]
    refine ⟨logged.nodup, by simp, ?_⟩
    rintro b called x new rfl
    rw [List.mem_singleton.mp new] at called
    exact uncalled called
  answered b := by
    rw [learn_lookup]
    by_cases same : b = a
    · simp [Cache.learn, same]
    · simp [Cache.learn, same, logged.answered]
  given b answer known := by
    rw [learn_lookup] at known
    split at known
    · rename_i same
      cases known
      exact ⟨c.calls, [], by rw [same, Cache.learn], by rw [same]⟩
    · obtain ⟨before, after, split, given⟩ := logged.given b answer known
      exact ⟨before, after ++ [a], by rw [Cache.learn, split, List.append_assoc, List.cons_append], given⟩

theorem Logged.lookup {ctx : Context} {c : Cache} (logged : Logged ctx c) (a : AttributeId) :
    Logged ctx (c.lookup ctx a).2 := by
  rcases c.lookup_cases ctx a with ⟨v, _, step⟩ | ⟨answer, _, _, step⟩ | ⟨answer, rfl, _, fresh, step⟩
  all_goals rw [step]
  · exact logged
  · exact ⟨logged.nodup, logged.answered, logged.given⟩
  · exact logged.learn a fresh

theorem Logged.of_trace {ctx : Context} {as : List AttributeId} {c d : Cache} (logged : Logged ctx c)
    (t : Trace ctx as c d) : Logged ctx d :=
  t.invariant logged (fun _ a _ logged => logged.lookup a)
    fun _ logged => ⟨logged.nodup, logged.answered, logged.given⟩

theorem Logged.agrees {ctx : Context} {c : Cache} (logged : Logged ctx c) (rest : Snapshot) :
    Agrees (ctx.snapshot c.calls rest) c := by
  intro a answer known
  have called : a ∈ c.calls := (logged.answered a).mpr ⟨answer, known⟩
  obtain ⟨before, after, split, given⟩ := logged.given a answer known
  have once : a ∉ before := by
    have nodup := logged.nodup
    rw [split, List.nodup_append] at nodup
    intro member
    exact nodup.2.2 a member a List.mem_cons_self rfl
  have untilCall : c.calls.takeWhile (· ≠ a) = before := by
    rw [split, List.takeWhile_append_of_pos]
    · simp
    · intro b member
      have other : b ≠ a := fun same => once (same ▸ member)
      simp [other]
  simp only [Context.snapshot, called, if_true, untilCall, given]

end Cache

end AccessControl
