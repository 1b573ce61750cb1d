import Mathlib.Data.List.Induction
import AccessControl.Request

namespace AccessControl

def AttributeId.builtin : Category → AttributeId
  | .subject => subjectId
  | .resource => resourceId
  | .action => actionId
  | .environment => currentDateTime

theorem AttributeId.isBuiltin_iff {a : AttributeId} : a.isBuiltin = true ↔ a = builtin a.category := by
  obtain ⟨category, name, valueType, multiplicity⟩ := a
  cases category <;> simp [isBuiltin, builtins, builtin, subjectId, actionId, resourceId, currentDateTime]

theorem AttributeId.builtin_category (c : Category) : (builtin c).category = c := by cases c <;> rfl

theorem AttributeId.builtin_isBuiltin (c : Category) : (builtin c).isBuiltin = true := by
  rw [isBuiltin_iff, builtin_category]

namespace Request

def field (r : Request) : Category → AttributeValue
  | .subject => .simple (.string r.subject)
  | .resource => .simple (.string r.resource)
  | .action => .simple (.string r.action)
  | .environment => .simple (.dateTime r.timestamp)

inductive Change where
  | time (timestamp : Instant)
  | binding (a : AttributeId) (v : AttributeValue)
  | bindings (bindings : List (AttributeId × AttributeValue))

def Change.apply (r : Request) : Change → Request
  | time t => r.withTimestamp t
  | binding a v => r.bind a v
  | bindings bs => r.bindAll bs

def build (subject action resource : String) (start : Instant) (changes : List Change) : Request :=
  changes.foldl Change.apply (.new subject action resource start)

def Change.time? : Change → Option Instant
  | time t => some t
  | _ => none

def Change.bound : Change → List (AttributeId × AttributeValue)
  | time _ => []
  | binding a v => [(a, v)]
  | bindings bs => bs

def lastTime (start : Instant) (changes : List Change) : Instant :=
  (changes.filterMap Change.time?).getLastD start

def lastBound (changes : List Change) (a : AttributeId) : Option AttributeValue :=
  (changes.flatMap Change.bound).reverse.lookup a

theorem lookup_cons (a b : AttributeId) (v : AttributeValue) (bs : List (AttributeId × AttributeValue)) :
    List.lookup b ((a, v) :: bs) = if b = a then some v else bs.lookup b := by
  rw [List.lookup_cons]
  by_cases same : b = a
  · simp [same]
  · rw [if_neg same, beq_false_of_ne same]

theorem lookup_insert (a b : AttributeId) (v : AttributeValue) (bs : List (AttributeId × AttributeValue)) :
    (insert a v bs).lookup b = if b = a then some v else bs.lookup b := by
  induction bs with
  | nil => rw [insert, lookup_cons]
  | cons head rest ih =>
    obtain ⟨c, w⟩ := head
    rw [insert]
    by_cases here : a = c
    · subst here
      rw [if_pos rfl, lookup_cons, lookup_cons]
      split <;> rfl
    · rw [if_neg here, lookup_cons, ih, lookup_cons]
      by_cases there : b = c
      · have other : ¬b = a := fun same => here (same.symm.trans there)
        rw [if_pos there, if_pos there, if_neg other]
      · rw [if_neg there, if_neg there]

theorem get?_withTimestamp (r : Request) (t : Instant) (b : AttributeId) :
    (r.withTimestamp t).get? b =
      if b = .currentDateTime then some (.simple (.dateTime t)) else r.get? b :=
  lookup_insert _ b _ r.bindings

theorem get?_bind (r : Request) (a b : AttributeId) (v : AttributeValue) :
    (r.bind a v).get? b = if a.isBuiltin = false ∧ b = a then some v else r.get? b := by
  unfold bind
  cases a.isBuiltin with
  | true => simp
  | false =>
    have inserted := lookup_insert a b v r.bindings
    simpa [get?] using inserted

theorem field_bind (r : Request) (a : AttributeId) (v : AttributeValue) : (r.bind a v).field = r.field := by
  unfold bind
  split <;> rfl

theorem get?_bindAll_builtin (r : Request) (bs : List (AttributeId × AttributeValue)) {b : AttributeId}
    (builtin : b.isBuiltin = true) : (r.bindAll bs).get? b = r.get? b := by
  induction bs generalizing r with
  | nil => rfl
  | cons head rest ih =>
    obtain ⟨a, v⟩ := head
    have kept : ¬(a.isBuiltin = false ∧ b = a) := by
      rintro ⟨free, rfl⟩
      rw [builtin] at free
      cases free
    have rest := ih (r.bind a v)
    rw [get?_bind, if_neg kept] at rest
    exact rest

theorem get?_bindAll_free (r : Request) (bs : List (AttributeId × AttributeValue)) {b : AttributeId}
    (free : b.isBuiltin = false) : (r.bindAll bs).get? b = (bs.reverse.lookup b).or (r.get? b) := by
  induction bs generalizing r with
  | nil => rfl
  | cons head rest ih =>
    obtain ⟨a, v⟩ := head
    have first : (r.bind a v).get? b = (List.lookup b [(a, v)]).or (r.get? b) := by
      rw [get?_bind, lookup_cons]
      by_cases same : b = a
      · subst same
        simp [free]
      · simp [same]
    rw [List.reverse_cons, List.lookup_append, Option.or_assoc, ← first]
    exact ih (r.bind a v)

theorem field_bindAll (r : Request) (bs : List (AttributeId × AttributeValue)) :
    (r.bindAll bs).field = r.field := by
  induction bs generalizing r with
  | nil => rfl
  | cons head rest ih => exact (ih (r.bind head.1 head.2)).trans (r.field_bind head.1 head.2)

/-- The request binds its own fields to the built-in attributes. -/
def Faithful (r : Request) : Prop := ∀ c, r.get? (.builtin c) = some (r.field c)

theorem Faithful.new (subject action resource : String) (t : Instant) :
    (new subject action resource t).Faithful := by
  intro c
  cases c <;> rfl

theorem Faithful.withTimestamp {r : Request} (faithful : r.Faithful) (t : Instant) :
    (r.withTimestamp t).Faithful := by
  intro c
  rw [get?_withTimestamp]
  cases c with
  | environment => rfl
  | subject => exact faithful .subject
  | action => exact faithful .action
  | resource => exact faithful .resource

theorem Faithful.bindAll {r : Request} (faithful : r.Faithful) (bs : List (AttributeId × AttributeValue)) :
    (r.bindAll bs).Faithful := by
  intro c
  rw [get?_bindAll_builtin r bs (AttributeId.builtin_isBuiltin c), field_bindAll]
  exact faithful c

theorem Change.apply_cases (r : Request) (change : Change) :
    (∃ t, change = time t ∧ change.apply r = r.withTimestamp t) ∨
      (change.time? = none ∧ change.apply r = r.bindAll change.bound) := by
  cases change with
  | time t => exact .inl ⟨t, rfl, rfl⟩
  | binding a v => exact .inr ⟨rfl, rfl⟩
  | bindings bs => exact .inr ⟨rfl, rfl⟩

theorem Faithful.apply {r : Request} (faithful : r.Faithful) (change : Change) :
    (change.apply r).Faithful := by
  rcases change.apply_cases r with ⟨t, _, applied⟩ | ⟨_, applied⟩
  · rw [applied]
    exact faithful.withTimestamp t
  · rw [applied]
    exact faithful.bindAll change.bound

theorem get?_apply_free (r : Request) (change : Change) {b : AttributeId} (free : b.isBuiltin = false) :
    (change.apply r).get? b = (change.bound.reverse.lookup b).or (r.get? b) := by
  rcases change.apply_cases r with ⟨t, rfl, applied⟩ | ⟨_, applied⟩
  · have other : b ≠ .currentDateTime := by
      rintro rfl
      cases free
    rw [applied, get?_withTimestamp, if_neg other]
    rfl
  · rw [applied, get?_bindAll_free r _ free]

section

variable (subject action resource : String) (start : Instant) (changes : List Change)

theorem build_append (last : Change) :
    build subject action resource start (changes ++ [last]) =
      last.apply (build subject action resource start changes) := by
  rw [build, List.foldl_append]
  rfl

theorem build_faithful : (build subject action resource start changes).Faithful := by
  induction changes using List.reverseRecOn with
  | nil => exact .new subject action resource start
  | append_singleton changes last ih =>
    rw [build_append]
    exact ih.apply last

theorem build_get?_free {a : AttributeId} (free : a.isBuiltin = false) :
    (build subject action resource start changes).get? a = lastBound changes a := by
  induction changes using List.reverseRecOn with
  | nil =>
    have other (c : Category) : a ≠ .builtin c := by
      rintro rfl
      rw [AttributeId.builtin_isBuiltin] at free
      cases free
    have unbound : (new subject action resource start).get? a = none := by
      simp only [get?, new, lookup_cons]
      rw [if_neg (show a ≠ .subjectId from other .subject), if_neg (show a ≠ .actionId from other .action),
        if_neg (show a ≠ .resourceId from other .resource),
        if_neg (show a ≠ .currentDateTime from other .environment)]
      rfl
    exact unbound
  | append_singleton changes last ih =>
    rw [build_append, get?_apply_free _ last free, ih, lastBound, lastBound, List.flatMap_append,
      List.reverse_append, List.lookup_append]
    simp

theorem build_field : (build subject action resource start changes).field =
    (new subject action resource (lastTime start changes)).field := by
  induction changes using List.reverseRecOn with
  | nil => rfl
  | append_singleton changes last ih =>
    rw [build_append]
    rcases last.apply_cases (build subject action resource start changes) with
      ⟨t, rfl, applied⟩ | ⟨none, applied⟩
    · have time : lastTime start (changes ++ [.time t]) = t := by simp [lastTime, Change.time?]
      rw [applied, time]
      funext c
      cases c with
      | environment => rfl
      | subject => exact congrFun ih .subject
      | action => exact congrFun ih .action
      | resource => exact congrFun ih .resource
    · have time : lastTime start (changes ++ [last]) = lastTime start changes := by simp [lastTime, none]
      rw [applied, field_bindAll, ih, time]

end

end Request

end AccessControl
