import AccessControl.Proofs.Catalog.Order
import AccessControl.Proofs.Identity.Catalog

namespace AccessControl

namespace Catalog

def Consistent (as : List AttributeId) : Prop := ∀ a ∈ as, ∀ b ∈ as, ¬a.Conflicts b

instance (as : List AttributeId) : Decidable (Consistent as) :=
  inferInstanceAs (Decidable (∀ a ∈ as, ∀ b ∈ as, ¬a.Conflicts b))

inductive Declaration where
  | declare (category : Category) (name : String) (valueType : ValueType) (multiplicity : Multiplicity)
  | insert (a : AttributeId)

def Declaration.attribute : Declaration → AttributeId
  | declare category name valueType multiplicity => ⟨category, name, valueType, multiplicity⟩
  | insert a => a

def call (c : Catalog) (d : Declaration) : Except PolicyError AttributeId × Catalog :=
  match c.declare d.attribute with
  | (.error e, c) => (.error e, c)
  | (.ok (), c) => (.ok d.attribute, c)

def run (c : Catalog) : List Declaration → List (Except PolicyError AttributeId) × Catalog
  | [] => ([], c)
  | d :: ds => ((c.call d).1 :: ((c.call d).2.run ds).1, ((c.call d).2.run ds).2)

variable {c : Catalog}

theorem initial_ordered : initial.Ordered := by
  unfold Ordered
  decide

theorem mem_initial {a : AttributeId} : a ∈ initial.declared ↔ a ∈ AttributeId.builtins := by
  have placed (as : List AttributeId) : a ∈ as.foldr place [] ↔ a ∈ as := by
    induction as with
    | nil => rfl
    | cons b bs ih => rw [List.foldr_cons, mem_place, ih, List.mem_cons]
  exact placed AttributeId.builtins

theorem Ordered.insert_cases (ordered : c.Ordered) (a : AttributeId) :
    (∃ b ∈ c.declared, b.Conflicts a ∧ c.insert a = .error (.conflictingDeclaration b a)) ∨
    ((∀ b ∈ c.declared, ¬b.Conflicts a) ∧
      ∃ d : Catalog, c.insert a = .ok d ∧ d.Ordered ∧ ∀ b, b ∈ d.declared ↔ b = a ∨ b ∈ c.declared) := by
  unfold insert declare
  cases found : c.get? a.category a.name with
  | none =>
    have fresh : ∀ b ∈ c.declared, ¬(a.category = b.category ∧ a.name = b.name) := by
      rintro b member ⟨category, name⟩
      exact absurd (List.find?_eq_none.mp found b member) (by simp [category, name])
    refine .inr ⟨fun b member conflict => ?_, _, rfl, pairwise_place ordered fresh, fun b => mem_place⟩
    exact fresh b member ⟨conflict.category.symm, conflict.name.symm⟩
  | some b =>
    obtain ⟨declared, category, name⟩ := get?_eq_some.mp found
    have member := ordered.contains_iff_mem.mp declared
    by_cases same : b = a
    · subst same
      refine .inr ⟨fun d declared conflict => ?_, c, by simp, ordered, fun d => ?_⟩
      · exact conflict.ne (ordered.unique declared member conflict.category conflict.name)
      · exact (or_iff_right_of_imp fun same => same ▸ member).symm
    · have conflict := (AttributeId.eq_or_conflicts category name).resolve_left (Ne.symm same)
      exact .inl ⟨b, member, conflict.symm, by simp [same]⟩

theorem Ordered.insertAll (ordered : c.Ordered) (as : List AttributeId) :
    ((∃ d, c.insertAll as = .ok d) ↔ Consistent (c.declared ++ as)) ∧
    ∀ d, c.insertAll as = .ok d → d.Ordered ∧ ∀ a, a ∈ d.declared ↔ a ∈ c.declared ∨ a ∈ as := by
  induction as generalizing c with
  | nil =>
    have consistent : Consistent (c.declared ++ []) := by
      intro a first b second conflict
      rw [List.append_nil] at first second
      exact conflict.ne (ordered.unique first second conflict.category conflict.name)
    refine ⟨⟨fun _ => consistent, fun _ => ⟨c, rfl⟩⟩, ?_⟩
    rintro d ⟨⟩
    exact ⟨ordered, by simp⟩
  | cons a as ih =>
    rcases ordered.insert_cases a with ⟨b, member, conflict, refused⟩ | ⟨_, d, inserted, ordered', members⟩
    · have failed : c.insertAll (a :: as) = .error (.conflictingDeclaration b a) := by
        rw [Catalog.insertAll, refused]
      rw [failed]
      refine ⟨⟨?_, fun consistent => ?_⟩, ?_⟩
      · rintro ⟨d, ⟨⟩⟩
      · exact absurd conflict (consistent b (List.mem_append_left _ member) a (by simp))
      · rintro d ⟨⟩
    · -- the rest is judged against a catalog that declares the first beside its own
      obtain ⟨accepted, result⟩ := ih ordered'
      have all (b : AttributeId) : b ∈ d.declared ++ as ↔ b ∈ c.declared ++ a :: as := by
        rw [List.mem_append, members, List.mem_append, List.mem_cons, or_assoc, or_left_comm]
      have rest : c.insertAll (a :: as) = d.insertAll as := by rw [Catalog.insertAll, inserted]
      rw [rest]
      refine ⟨accepted.trans (by simp only [Consistent, all]), fun e done => ?_⟩
      obtain ⟨ordered, members'⟩ := result e done
      refine ⟨ordered, fun b => ?_⟩
      rw [members', ← List.mem_append, all, List.mem_append]

theorem ofList_same {as bs : List AttributeId} (same : ∀ a, a ∈ bs ↔ a ∈ as) (done : ofList bs = .ok c) :
    ofList as = .ok c := by
  obtain ⟨accepted, result⟩ := initial_ordered.insertAll as
  obtain ⟨accepted', result'⟩ := initial_ordered.insertAll bs
  have consistent : Consistent (initial.declared ++ bs) ↔ Consistent (initial.declared ++ as) := by
    simp only [Consistent, List.mem_append, same]
  obtain ⟨d, done'⟩ := accepted.mpr (consistent.mp (accepted'.mp ⟨c, done⟩))
  obtain ⟨ordered, members⟩ := result d done'
  obtain ⟨ordered', members'⟩ := result' c done
  have equal : d = c := ordered.ext ordered' fun a => by rw [members, members', same]
  rw [← equal]
  exact done'

theorem Ordered.call_cases (ordered : c.Ordered) (d : Declaration) :
    (∃ b ∈ c.declared, b.Conflicts d.attribute ∧
      c.call d = (.error (.conflictingDeclaration b d.attribute), c)) ∨
    ((∀ b ∈ c.declared, ¬b.Conflicts d.attribute) ∧ (c.call d).1 = .ok d.attribute ∧ (c.call d).2.Ordered ∧
      ∀ b, b ∈ (c.call d).2.declared ↔ b = d.attribute ∨ b ∈ c.declared) := by
  unfold call
  rw [declare_eq]
  rcases ordered.insert_cases d.attribute with ⟨b, member, conflict, refused⟩ | ⟨free, e, inserted, made⟩
  · exact .inl ⟨b, member, conflict, by rw [refused]⟩
  · rw [inserted]
    exact .inr ⟨free, rfl, made⟩

theorem Ordered.run (ordered : c.Ordered) (ds : List Declaration) :
    (c.run ds).2.Ordered ∧ ∀ a, a ∈ (c.run ds).2.declared ↔ a ∈ c.declared ∨ .ok a ∈ (c.run ds).1 := by
  induction ds generalizing c with
  | nil => exact ⟨ordered, by simp [Catalog.run]⟩
  | cons d ds ih =>
    rw [Catalog.run]
    rcases ordered.call_cases d with ⟨b, _, _, refused⟩ | ⟨_, answer, ordered', members⟩
    · rw [refused]
      obtain ⟨ordered', members⟩ := ih ordered
      exact ⟨ordered', by simp [members]⟩
    · obtain ⟨ordered'', members'⟩ := ih ordered'
      refine ⟨ordered'', fun a => ?_⟩
      rw [members', members, answer]
      simp [or_assoc, or_left_comm]

theorem run_keeps (ds : List Declaration) {category : Category} {name : String} {a : AttributeId}
    (declared : c.get? category name = some a) : (c.run ds).2.get? category name = some a := by
  induction ds generalizing c with
  | nil => exact declared
  | cons d ds ih =>
    apply ih
    rw [call, declare_eq]
    cases inserted : c.insert d.attribute with
    | error e => exact declared
    | ok _ => exact insert_keeps inserted declared

/-- Declarations are accepted if and only if no two of them and the built-in ones exclude each other, and
then the catalog has these and no others, whatever their order and however often they are repeated.
Whatever calls are made: one that fails changes nothing, what is found under a category and a name has
them and is found from then on, and exactly the built-in attributes and those declared by a call that
succeeded are in the catalog. -/
theorem declarations_consistent :
    (∀ as : List AttributeId,
      ((∃ c, ofList as = .ok c) ↔ Consistent (AttributeId.builtins ++ as)) ∧
      (∀ c, ofList as = .ok c → c.declared.Nodup ∧
        ∀ a, (c.contains a = true ↔ a ∈ c.declared) ∧ (a ∈ c.declared ↔ a.isBuiltin = true ∨ a ∈ as)) ∧
      ∀ bs : List AttributeId, (∀ a, a ∈ bs ↔ a ∈ as) → ∀ c, ofList bs = .ok c ↔ ofList as = .ok c) ∧
    ∀ ds : List Declaration,
      let c := (initial.run ds).2
      (∀ d e, (c.call d).1 = .error e → (c.call d).2 = c) ∧
      (∀ category name a, c.get? category name = some a →
        a.category = category ∧ a.name = name ∧ ∀ more, (c.run more).2.get? category name = some a) ∧
      ∀ a, c.contains a = true ↔ a.isBuiltin = true ∨ .ok a ∈ (initial.run ds).1 := by
  have builtin (a : AttributeId) : a ∈ AttributeId.builtins ↔ a.isBuiltin = true := List.contains_iff_mem.symm
  constructor
  · intro as
    obtain ⟨accepted, result⟩ := initial_ordered.insertAll as
    have consistent : Consistent (initial.declared ++ as) ↔ Consistent (AttributeId.builtins ++ as) := by
      simp only [Consistent, List.mem_append, mem_initial]
    refine ⟨accepted.trans consistent, fun c done => ?_, fun bs same c => ?_⟩
    · obtain ⟨ordered, members⟩ := result c done
      refine ⟨.of_map _ ordered.nodup_names, fun a => ⟨ordered.contains_iff_mem, ?_⟩⟩
      rw [members, mem_initial, builtin]
    · exact ⟨ofList_same same, ofList_same fun a => (same a).symm⟩
  · intro ds c
    obtain ⟨ordered, members⟩ := initial_ordered.run ds
    refine ⟨fun d e failed => ?_, fun category name a found => ?_, fun a => ?_⟩
    · rcases ordered.call_cases d with ⟨b, _, _, refused⟩ | ⟨_, answer, _⟩
      · rw [refused]
      · cases answer.symm.trans failed
    · obtain ⟨_, category, name⟩ := get?_eq_some.mp found
      exact ⟨category.symm, name.symm, fun more => run_keeps more found⟩
    · rw [ordered.contains_iff_mem, members, mem_initial, builtin]

theorem declarations_consistent_role :
    let roles : AttributeId := ⟨.subject, "role", .string, .bag⟩
    let role : AttributeId := ⟨.subject, "role", .string, .single⟩
    let owner : AttributeId := ⟨.resource, "owner", .string, .single⟩
    let subject : AttributeId := ⟨.subject, AttributeId.subjectId.name, .integer, .single⟩
    (∃ c, ofList [roles, owner] = .ok c ∧ ofList [owner, roles, owner] = .ok c ∧ c.contains roles = true) ∧
      (¬∃ c, ofList [roles, owner, role] = .ok c) ∧ (¬∃ c, ofList [subject] = .ok c) ∧
      (initial.run [.insert roles, .declare .subject "role" .string .single]).2.contains role = false := by
  intro roles role owner subject
  obtain ⟨lists, runs⟩ := declarations_consistent
  obtain ⟨accepted, content, anyOrder⟩ := lists [roles, owner]
  obtain ⟨c, done⟩ := accepted.mpr (by decide)
  have again : ofList [owner, roles, owner] = .ok c := (anyOrder _ (by simp [or_comm]) c).mpr done
  have member := ((content c done).2 roles).1.mpr (((content c done).2 roles).2.mpr (.inr (by simp)))
  refine ⟨⟨c, done, again, member⟩, ?_, ?_, ?_⟩
  · exact fun made => absurd ((lists [roles, owner, role]).1.mp made) (by decide)
  · exact fun made => absurd ((lists [subject]).1.mp made) (by decide)
  · rw [Bool.eq_false_iff, ne_eq, (runs _).2.2 role]
    decide

end Catalog

end AccessControl
