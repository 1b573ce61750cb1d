import AccessControl.Proofs.Cache.Snapshot

namespace AccessControl.Cache

variable {α β : Type}

def andThen (f : Cache → α × Cache) (g : α → Cache → β × Cache) (c : Cache) : β × Cache := g (f c).1 (f c).2

def bind (f : Cache → Except Reason α × Cache) (g : α → Cache → Except Reason β × Cache) (c : Cache) :
    Except Reason β × Cache :=
  match f c with
  | (.error e, c) => (.error e, c)
  | (.ok a, c) => g a c

theorem bind_eq_andThen (f : Cache → Except Reason α × Cache) (g : α → Cache → Except Reason β × Cache) :
    bind f g = andThen f fun r c =>
      match r with
      | .error e => (.error e, c)
      | .ok a => g a c := by
  funext c
  unfold bind andThen
  rcases f c with ⟨_ | a, d⟩ <;> rfl

/-- The evaluation looks up some of these attributes, in their order, and gives `x` wherever the
snapshot agrees with the cache that it leaves. -/
structure Reads (s : Snapshot) (ctx : Context) (as : List AttributeId) (f : Cache → α × Cache) (x : α) :
    Prop where
  trace : ∀ c, Trace ctx as c (f c).2
  result : ∀ c, Agrees s (f c).2 → (f c).1 = x

namespace Reads

variable {s : Snapshot} {ctx : Context} {as bs : List AttributeId}

theorem skip (as : List AttributeId) (x : α) : Reads s ctx as (fun c => (x, c)) x where
  trace := .refl as
  result _ _ := rfl

theorem look (a : AttributeId) : Reads s ctx [a] (fun c => c.lookup ctx a) (ctx.request.read s a) where
  trace _ := .look a (.done _)
  result _ agrees := agrees.lookup_eq

theorem visit {f : Cache → α × Cache} {x : α} (reads : Reads s ctx as f x) :
    Reads s ctx as (fun c => f c.visitNode) x where
  trace c := .visit (reads.trace c.visitNode)
  result c agrees := reads.result c.visitNode agrees

theorem map {f : Cache → α × Cache} {x : α} (reads : Reads s ctx as f x) (h : α → β) :
    Reads s ctx as (fun c => (h (f c).1, (f c).2)) (h x) where
  trace := reads.trace
  result c agrees := congrArg h (reads.result c agrees)

theorem andThen {f : Cache → α × Cache} {g : α → Cache → β × Cache} {x : α} {y : α → β}
    (first : Reads s ctx as f x) (second : ∀ a, Reads s ctx bs (g a) (y a)) :
    Reads s ctx (as ++ bs) (andThen f g) (y x) where
  trace c := (first.trace c).trans ((second _).trace _)
  result c agrees := by
    -- what the second evaluation leaves still holds the answers that the first one saw
    have before : Agrees s (f c).2 := agrees.of_trace ((second _).trace _)
    rw [← first.result c before]
    exact (second _).result _ agrees

theorem bind {f : Cache → Except Reason α × Cache} {g : α → Cache → Except Reason β × Cache}
    {x : Except Reason α} {y : α → Except Reason β}
    (first : Reads s ctx as f x) (second : ∀ a, Reads s ctx bs (g a) (y a)) :
    Reads s ctx (as ++ bs) (bind f g) (x.bind y) := by
  rw [bind_eq_andThen]
  refine first.andThen (y := fun r => r.bind y) fun r => ?_
  cases r with
  | error e => exact skip bs _
  | ok a => exact second a

theorem bind_apply {f : Cache → Except Reason α × Cache} {x : Except Reason α}
    (reads : Reads s ctx as f x) (h : α → Except Reason β) :
    Reads s ctx as (Cache.bind f fun a c => (h a, c)) (x.bind h) := by
  have both := reads.bind fun a => skip [] (h a)
  rwa [List.append_nil] at both

end Reads

end AccessControl.Cache
