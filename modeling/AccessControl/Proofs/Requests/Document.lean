import AccessControl.Proofs.Identity.Catalog
import AccessControl.Proofs.Reasons.Run
import AccessControl.Proofs.Requests.Typed

namespace AccessControl

namespace RequestAttribute

def Names (e : RequestAttribute) (a : AttributeId) : Prop := e.category = a.category ∧ e.name = a.name

/-- The entry binds the attribute to the value. -/
structure Binds (catalog : Catalog) (e : RequestAttribute) (a : AttributeId) (v : AttributeValue) : Prop where
  declared : catalog.contains a = true
  names : e.Names a
  free : a.isBuiltin = false
  takes : a.Takes e.value v

/-- The entry cannot be bound, for this reason. -/
inductive Refused (catalog : Catalog) (e : RequestAttribute) : RequestError → Prop where
  | undeclared (unknown : ∀ a, catalog.contains a = true → ¬e.Names a) :
    Refused catalog e (.unknownAttribute e.category e.name)
  | builtin {a : AttributeId} (names : e.Names a) (reserved : a.isBuiltin = true) :
    Refused catalog e (.reservedAttribute a)
  | untypable {a : AttributeId} {expected found : String} (declared : catalog.contains a = true)
    (names : e.Names a) (free : a.isBuiltin = false) (rejects : a.Rejects e.value expected found) :
    Refused catalog e (.invalidValue a expected found)

variable {catalog : Catalog} {e : RequestAttribute} {a : AttributeId}

theorem get?_eq_some : catalog.get? e.category e.name = some a ↔ catalog.contains a = true ∧ e.Names a :=
  Catalog.get?_eq_some

theorem toBinding_of_builtin (known : catalog.get? e.category e.name = some a)
    (reserved : a.isBuiltin = true) : e.toBinding catalog = .error (.reservedAttribute a) := by
  rw [toBinding, known]
  exact if_pos reserved

theorem toBinding_of_free (known : catalog.get? e.category e.name = some a) (free : a.isBuiltin = false) :
    e.toBinding catalog = (a.typed e.value).map fun v => (a, v) := by
  rw [toBinding, known]
  exact if_neg (Bool.eq_false_iff.mp free)

theorem toBinding_eq_ok {b : AttributeId × AttributeValue} :
    e.toBinding catalog = .ok b ↔ e.Binds catalog b.1 b.2 := by
  constructor
  · intro ok
    cases known : catalog.get? e.category e.name with
    | none =>
      rw [toBinding, known] at ok
      cases ok
    | some a =>
      cases builtin : a.isBuiltin with
      | true =>
        rw [toBinding_of_builtin known builtin] at ok
        cases ok
      | false =>
        rw [toBinding_of_free known builtin] at ok
        obtain ⟨v, typed, rfl⟩ := map_eq_ok.mp ok
        obtain ⟨declared, names⟩ := get?_eq_some.mp known
        exact ⟨declared, names, builtin, AttributeId.typed_eq_ok.mp typed⟩
  · intro binds
    have known := get?_eq_some.mpr ⟨binds.declared, binds.names⟩
    rw [toBinding_of_free known binds.free, AttributeId.typed_eq_ok.mpr binds.takes, Except.map]

theorem toBinding_eq_error (built : catalog.Built) {err : RequestError} :
    e.toBinding catalog = .error err ↔ e.Refused catalog err := by
  constructor
  · intro failed
    cases known : catalog.get? e.category e.name with
    | none =>
      rw [toBinding, known] at failed
      cases failed
      apply Refused.undeclared
      intro a declared names
      rw [get?_eq_some.mpr ⟨declared, names⟩] at known
      cases known
    | some a =>
      obtain ⟨declared, names⟩ := get?_eq_some.mp known
      cases builtin : a.isBuiltin with
      | true =>
        rw [toBinding_of_builtin known builtin] at failed
        cases failed
        exact .builtin names builtin
      | false =>
        rw [toBinding_of_free known builtin, map_eq_error] at failed
        obtain ⟨expected, found, rejects, rfl⟩ := AttributeId.typed_eq_error.mp failed
        exact .untypable declared names builtin rejects
  · intro refused
    cases refused with
    | undeclared unknown =>
      cases known : catalog.get? e.category e.name with
      | none => rw [toBinding, known]
      | some a =>
        obtain ⟨declared, names⟩ := get?_eq_some.mp known
        exact absurd names (unknown a declared)
    | @builtin a names reserved =>
      have declared := built.declares_builtin a.category
      rw [← AttributeId.isBuiltin_iff.mp reserved, ← names.1, ← names.2] at declared
      exact toBinding_of_builtin declared reserved
    | untypable declared names free rejects =>
      have known := get?_eq_some.mpr ⟨declared, names⟩
      rw [toBinding_of_free known free, AttributeId.typed_eq_error.mpr ⟨_, _, rejects, rfl⟩, Except.map]

theorem not_refused_iff (built : catalog.Built) :
    (∀ err, ¬e.Refused catalog err) ↔ ∃ b, e.toBinding catalog = .ok b := by
  simp only [← toBinding_eq_error built]
  cases e.toBinding catalog <;> simp

end RequestAttribute

namespace Request

theorem forall_insert {P : AttributeId × AttributeValue → Prop} {a : AttributeId} {v : AttributeValue}
    {bs : List (AttributeId × AttributeValue)} (new : P (a, v)) (old : ∀ b ∈ bs, P b) :
    ∀ b ∈ insert a v bs, P b := by
  induction bs with
  | nil => exact List.forall_mem_singleton.mpr new
  | cons head rest ih =>
    obtain ⟨first, later⟩ := List.forall_mem_cons.mp old
    rw [insert]
    split
    · exact List.forall_mem_cons.mpr ⟨new, later⟩
    · exact List.forall_mem_cons.mpr ⟨first, ih later⟩

theorem forall_bindAll {P : AttributeId × AttributeValue → Prop} {r : Request}
    {bs : List (AttributeId × AttributeValue)} (old : ∀ b ∈ r.bindings, P b) (new : ∀ b ∈ bs, P b) :
    ∀ b ∈ (r.bindAll bs).bindings, P b := by
  induction bs generalizing r with
  | nil => exact old
  | cons head rest ih =>
    obtain ⟨first, later⟩ := List.forall_mem_cons.mp new
    have bound : ∀ b ∈ (r.bind head.1 head.2).bindings, P b := by
      unfold bind
      split
      · exact old
      · exact forall_insert first old
    exact ih bound later

theorem mem_of_get? {r : Request} {a : AttributeId} {v : AttributeValue} (bound : r.get? a = some v) :
    (a, v) ∈ r.bindings := by
  obtain ⟨before, after, split, _⟩ := List.lookup_eq_some_iff.mp bound
  rw [split]
  exact List.mem_append_right _ List.mem_cons_self

end Request

namespace RequestDocument

def changes (d : RequestDocument) (bs : List (AttributeId × AttributeValue)) : List Request.Change :=
  .bindings bs :: (d.timestamp.map Request.Change.time).toList

def assembled (d : RequestDocument) (now : Instant) (bs : List (AttributeId × AttributeValue)) : Request :=
  .build d.subject d.action d.resource now (d.changes bs)

theorem bindings_eq_mapM (catalog : Catalog) (es : List RequestAttribute) :
    bindings catalog es = es.mapM (RequestAttribute.toBinding catalog) := by
  induction es with
  | nil => rfl
  | cons e es ih =>
    rw [bindings, ih, mapM_cons_except]
    rfl

theorem toRequest_eq (d : RequestDocument) (catalog : Catalog) (now : Instant) :
    d.toRequest catalog now =
      (d.attributes.mapM (RequestAttribute.toBinding catalog)).map (d.assembled now) := by
  rw [toRequest, bindings_eq_mapM]
  cases d.attributes.mapM (RequestAttribute.toBinding catalog) with
  | error e => rfl
  | ok bs =>
    rw [Except.map, assembled, changes]
    cases d.timestamp <;> rfl

variable {d : RequestDocument} {catalog : Catalog} {now : Instant}

theorem assembled_builtin (bs : List (AttributeId × AttributeValue)) (c : Category) :
    (d.assembled now bs).get? (.builtin c) =
      some ((Request.new d.subject d.action d.resource (d.timestamp.getD now)).field c) := by
  have time : Request.lastTime now (d.changes bs) = d.timestamp.getD now := by
    rw [changes]
    cases d.timestamp <;> rfl
  rw [assembled, Request.build_faithful, Request.build_field, time]

theorem assembled_free (bs : List (AttributeId × AttributeValue)) {a : AttributeId}
    (free : a.isBuiltin = false) : (d.assembled now bs).get? a = bs.reverse.lookup a := by
  have bound : (d.changes bs).flatMap Request.Change.bound = bs := by
    rw [changes]
    cases d.timestamp <;> simp [Request.Change.bound]
  rw [assembled, Request.build_get?_free _ _ _ _ _ free, Request.lastBound, bound]

/-- The request that a document describes. -/
structure Describes (d : RequestDocument) (catalog : Catalog) (now : Instant) (r : Request) : Prop where
  conform : ∀ b ∈ r.bindings, catalog.contains b.1 = true ∧ b.2.conformsTo b.1 = true
  unreserved : ∀ e ∈ d.attributes, ∀ a, a.isBuiltin = true → ¬e.Names a
  subject : r.get? .subjectId = some (.simple (.string d.subject))
  action : r.get? .actionId = some (.simple (.string d.action))
  resource : r.get? .resourceId = some (.simple (.string d.resource))
  timestamp : r.get? .currentDateTime = some (.simple (.dateTime (d.timestamp.getD now)))
  last : ∀ a, a.isBuiltin = false → ∀ v, r.get? a = some v ↔ ∃ before e after,
    d.attributes = before ++ e :: after ∧ e.Binds catalog a v ∧ ∀ later ∈ after, ¬later.Names a

variable {bs : List (AttributeId × AttributeValue)}

theorem bound_of_mem (read : d.attributes.mapM (RequestAttribute.toBinding catalog) = .ok bs)
    {b : AttributeId × AttributeValue} (member : b ∈ bs) : ∃ e ∈ d.attributes, e.Binds catalog b.1 b.2 := by
  obtain ⟨e, entry, bound⟩ := forall₂_mem (mapM_eq_ok.mp read) member
  exact ⟨e, entry, RequestAttribute.toBinding_eq_ok.mp bound⟩

theorem last_binding (read : d.attributes.mapM (RequestAttribute.toBinding catalog) = .ok bs)
    (a : AttributeId) (v : AttributeValue) : bs.reverse.lookup a = some v ↔ ∃ before e after,
      d.attributes = before ++ e :: after ∧ e.Binds catalog a v ∧ ∀ later ∈ after, ¬later.Names a := by
  have related := mapM_eq_ok.mp read
  constructor
  · intro found
    obtain ⟨later, earlier, split, others⟩ := List.lookup_eq_some_iff.mp found
    rw [List.reverse_eq_iff, List.reverse_append, List.reverse_cons, List.append_assoc,
      List.singleton_append] at split
    rw [split] at related
    obtain ⟨before, e, after, entries, bound, rest⟩ := forall₂_split related
    have binds := RequestAttribute.toBinding_eq_ok.mp bound
    refine ⟨before, e, after, entries, binds, fun e' member names => ?_⟩
    obtain ⟨b, inside, bound⟩ := forall₂_mem rest.flip member
    have binds' := RequestAttribute.toBinding_eq_ok.mp bound
    have same : a = b.1 := Catalog.contains_unique binds.declared binds'.declared
      (names.1.symm.trans binds'.names.1) (names.2.symm.trans binds'.names.2)
    exact bne_iff_ne.mp (others b (List.mem_reverse.mp inside)) same
  · rintro ⟨before, e, after, entries, binds, silent⟩
    rw [entries] at related
    obtain ⟨earlier, b, later, rfl, bound, rest⟩ := forall₂_split related.flip
    have value : b = (a, v) := Except.ok.inj (bound.symm.trans (RequestAttribute.toBinding_eq_ok.mpr binds))
    refine List.lookup_eq_some_iff.mpr ⟨later.reverse, earlier.reverse, by simp [value], fun b' member => ?_⟩
    obtain ⟨e', inside, bound⟩ := forall₂_mem rest.flip (List.mem_reverse.mp member)
    rw [bne_iff_ne]
    rintro rfl
    exact silent e' inside (RequestAttribute.toBinding_eq_ok.mp bound).names

theorem assembled_conform (built : catalog.Built)
    (read : d.attributes.mapM (RequestAttribute.toBinding catalog) = .ok bs) :
    ∀ b ∈ (d.assembled now bs).bindings, catalog.contains b.1 = true ∧ b.2.conformsTo b.1 = true := by
  have declared (c : Category) : catalog.contains (.builtin c) = true := by
    rw [Catalog.contains_iff, AttributeId.builtin_category]
    exact built.declares_builtin c
  have own : ∀ b ∈ (Request.new d.subject d.action d.resource now).bindings,
      catalog.contains b.1 = true ∧ b.2.conformsTo b.1 = true := by
    simp only [Request.new, List.forall_mem_cons]
    exact ⟨⟨declared .subject, rfl⟩, ⟨declared .action, rfl⟩, ⟨declared .resource, rfl⟩,
      ⟨declared .environment, rfl⟩, by simp⟩
  have bound : ∀ b ∈ bs, catalog.contains b.1 = true ∧ b.2.conformsTo b.1 = true := by
    intro b member
    obtain ⟨e, _, binds⟩ := bound_of_mem read member
    exact ⟨binds.declared, binds.takes.conforms⟩
  rw [assembled, changes]
  cases d.timestamp with
  | none => exact Request.forall_bindAll own bound
  | some t => exact Request.forall_insert ⟨declared .environment, rfl⟩ (Request.forall_bindAll own bound)

theorem assembled_describes (built : catalog.Built)
    (read : d.attributes.mapM (RequestAttribute.toBinding catalog) = .ok bs) :
    d.Describes catalog now (d.assembled now bs) where
  conform := assembled_conform built read
  unreserved := by
    intro e member a reserved names
    obtain ⟨b, _, bound⟩ := forall₂_mem (mapM_eq_ok.mp read).flip member
    have refused := (RequestAttribute.toBinding_eq_error built).mpr (.builtin names reserved)
    cases bound.symm.trans refused
  subject := assembled_builtin bs .subject
  action := assembled_builtin bs .action
  resource := assembled_builtin bs .resource
  timestamp := assembled_builtin bs .environment
  last := by
    intro a free v
    rw [assembled_free bs free]
    exact last_binding read a v

/-- The decision point finds the value of everything that the document names. A value that it reports as
unfit for its declaration is the resolver's answer for an attribute that the document does not name. -/
structure Fits (d : RequestDocument) (p : DecisionPoint) (r : Request) : Prop where
  found : ∀ a, p.policy.Mentions a → (∃ e ∈ d.attributes, e.Names a) →
    ∃ v, r.get? a = some v ∧ ∀ c : Cache, c.lookup ⟨r, p.resolver⟩ a = (.ok v, c)
  unfit : ∀ x reason, (p.respond r).1.decision = .indeterminate x reason →
    (∃ b w, Answer.check b w = .error reason.cause) →
      ∃ a v, p.policy.Mentions a ∧ (∀ e ∈ d.attributes, ¬e.Names a) ∧ r.get? a = none ∧
        Context.Answered ⟨r, p.resolver⟩ (p.respond r).2.calls a (.ok (some v)) ∧
          Answer.check a v = .error reason.cause

theorem Describes.check {r : Request} (describes : d.Describes catalog now r) {a : AttributeId}
    {v : AttributeValue} (bound : r.get? a = some v) : Answer.check a v = .ok v := by
  have conforms := (describes.conform (a, v) (Request.mem_of_get? bound)).2
  rw [Answer.check, if_pos conforms]

theorem assembled_bound (read : d.attributes.mapM (RequestAttribute.toBinding catalog) = .ok bs)
    {e : RequestAttribute} (member : e ∈ d.attributes) {a : AttributeId}
    (declared : catalog.contains a = true) (names : e.Names a) :
    ∃ v, (d.assembled now bs).get? a = some v := by
  obtain ⟨⟨a', v⟩, inside, bound⟩ := forall₂_mem (mapM_eq_ok.mp read).flip member
  have binds := RequestAttribute.toBinding_eq_ok.mp bound
  have same : a = a' := Catalog.contains_unique declared binds.declared (names.1.symm.trans binds.names.1)
    (names.2.symm.trans binds.names.2)
  subst same
  rw [assembled_free bs binds.free]
  cases found : bs.reverse.lookup a with
  | some v => exact ⟨v, rfl⟩
  | none =>
    have other := List.lookup_eq_none_iff.mp found (a, v) (List.mem_reverse.mpr inside)
    simp at other

theorem assembled_fits (built : catalog.Built)
    (read : d.attributes.mapM (RequestAttribute.toBinding catalog) = .ok bs) {p : DecisionPoint}
    (same : p.catalog = catalog) : d.Fits p (d.assembled now bs) := by
  have describes := @assembled_describes d catalog now bs built read
  have bound (a : AttributeId) (mentions : p.policy.Mentions a) (named : ∃ e ∈ d.attributes, e.Names a) :
      ∃ v, (d.assembled now bs).get? a = some v := by
    obtain ⟨e, member, names⟩ := named
    exact assembled_bound read member (same ▸ Policy.validate_mentions p.valid mentions) names
  constructor
  · intro a mentions named
    obtain ⟨v, value⟩ := bound a mentions named
    refine ⟨v, value, fun c => ?_⟩
    simp only [Cache.lookup, value, describes.check value]
  · rintro x reason failed ⟨b, w, mismatch⟩
    obtain ⟨detail, cause⟩ := Answer.check_error mismatch
    have attested := Policy.respond_cause failed
    rw [cause] at attested mismatch ⊢
    rcases attested with operator | ⟨a, v, mentions, value | ⟨free, answered⟩, unfit⟩
    · exact absurd mismatch (operator.undeclared b w)
    · cases (describes.check value).symm.trans unfit
    · refine ⟨a, v, mentions, fun e member names => ?_, free, answered, unfit⟩
      obtain ⟨w, value⟩ := bound a mentions ⟨e, member, names⟩
      cases free.symm.trans value

/-- A document is refused exactly if one of its entries is, and for what is wrong with the first of these.
Else its request binds declared attributes to values of their types, its own fields to the built-in ones,
and every other attribute to what the last entry for it gives; a lone scalar gives what an array of it
gives. No decision point with the same catalog finds anything in it unfit. -/
theorem toRequest_typed (built : catalog.Built) (d : RequestDocument) (now : Instant) :
    (∀ err, d.toRequest catalog now = .error err ↔ ∃ before e after, d.attributes = before ++ e :: after ∧
      (∀ b ∈ before, ∀ err', ¬b.Refused catalog err') ∧ e.Refused catalog err) ∧
    ((∃ err, d.toRequest catalog now = .error err) ↔ ∃ e ∈ d.attributes, ∃ err, e.Refused catalog err) ∧
    (∀ (a : AttributeId) j, (∃ expected found, a.Rejects j expected found) ↔ ∀ v, ¬a.Takes j v) ∧
    (∀ (a : AttributeId) j, a.multiplicity = .bag → ¬j.IsArray → a.typed (.array [j]) = a.typed j) ∧
    ∀ r, d.toRequest catalog now = .ok r → d.Describes catalog now r ∧
      ∀ p : DecisionPoint, p.catalog = catalog → d.Fits p r := by
  have first (err : RequestError) : d.toRequest catalog now = .error err ↔ ∃ before e after,
      d.attributes = before ++ e :: after ∧ (∀ b ∈ before, ∀ err', ¬b.Refused catalog err') ∧
        e.Refused catalog err := by
    rw [toRequest_eq, map_eq_error, mapM_eq_error]
    simp only [RequestAttribute.not_refused_iff built, RequestAttribute.toBinding_eq_error built]
  refine ⟨first, ⟨?_, ?_⟩, fun a j => AttributeId.rejects_iff, fun a j => AttributeId.typed_singleton, ?_⟩
  · rintro ⟨err, failed⟩
    obtain ⟨before, e, after, entries, _, refused⟩ := (first err).mp failed
    exact ⟨e, by simp [entries], err, refused⟩
  · rintro ⟨e, member, err, refused⟩
    cases result : d.toRequest catalog now with
    | error err => exact ⟨err, rfl⟩
    | ok r =>
      rw [toRequest_eq] at result
      obtain ⟨bs, read, _⟩ := map_eq_ok.mp result
      obtain ⟨b, _, bound⟩ := forall₂_mem (mapM_eq_ok.mp read).flip member
      cases bound.symm.trans ((RequestAttribute.toBinding_eq_error built).mpr refused)
  · intro r ok
    rw [toRequest_eq] at ok
    obtain ⟨bs, read, rfl⟩ := map_eq_ok.mp ok
    exact ⟨assembled_describes built read, fun p same => assembled_fits built read same⟩

theorem toRequest_typed_tags :
    let tags : AttributeId := ⟨.resource, "tags", .string, .bag⟩
    let catalog : Catalog := ⟨[.subjectId, .resourceId, tags, .actionId, .currentDateTime]⟩
    let draft : AttributeValue := .simple (.string "draft")
    let drafted : Expression := .compare .isIn (.literal draft) (.ref tags)
    let p : DecisionPoint :=
      ⟨.rule ⟨"drafts", none, some drafted, .permit, []⟩, catalog, .empty, .default, rfl⟩
    let now : Instant := ⟨2025, 1, 8, 10, 0, 0, 0, by decide⟩
    let both : List RequestAttribute :=
      [⟨.resource, "tags", .array [.string "secret", .string "old"]⟩, ⟨.resource, "tags", .string "draft"⟩]
    let d : RequestDocument := ⟨"ann", "read", "doc1", none, both⟩
    let forged : RequestDocument := ⟨"ann", "read", "doc1", none, both ++ [⟨.subject, "id", .string "root"⟩]⟩
    catalog.Built ∧ (∃ r, d.toRequest catalog now = .ok r ∧ d.Describes catalog now r ∧ d.Fits p r ∧
      r.get? tags = some (.bag (.ofList [.string "draft"])) ∧ (p.respond r).1 = .bare .permit) ∧
      forged.toRequest catalog now = .error (.reservedAttribute .subjectId) := by
  intro tags catalog draft drafted p now both d forged
  have inserted : Catalog.initial.insert tags = .ok catalog := by cbv
  have built : catalog.Built := .insert .initial inserted
  obtain ⟨_, _, _, _, described⟩ := toRequest_typed built d now
  obtain ⟨describes, fits⟩ := described _ rfl
  exact ⟨built, ⟨_, rfl, describes, fits p rfl, rfl, rfl⟩, rfl⟩

end RequestDocument

end AccessControl
