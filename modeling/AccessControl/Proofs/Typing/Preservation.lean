import Mathlib.Data.List.Forall2
import AccessControl.Proofs.Eager.Expression
import AccessControl.Proofs.References.Declared
import AccessControl.Proofs.Typing.Operators

namespace AccessControl

open AttributeValue (HasType)

theorem Answer.check_conforms {a : AttributeId} {v w : AttributeValue} (ok : check a v = .ok w) :
    w.conformsTo a = true := by
  unfold check at ok
  split at ok
  · rename_i conforms
    cases ok
    exact conforms
  · cases ok

theorem Request.read_conforms {r : Request} {s : Snapshot} {a : AttributeId} {v : AttributeValue}
    (ok : r.read s a = .ok v) : v.conformsTo a = true := by
  unfold read at ok
  split at ok
  · exact Answer.check_conforms ok
  · cases answer : s a with
    | found w =>
      rw [answer] at ok
      exact Answer.check_conforms ok
    | missing =>
      rw [answer] at ok
      cases ok
    | failed m =>
      rw [answer] at ok
      cases ok

theorem map_ofBool_hasType {α : Type} {r : Except Reason α} {f : α → Bool} {v : AttributeValue}
    (ok : r.map (fun a => .ofBool (f a)) = .ok v) : v.HasType .boolean := by
  cases r with
  | error e => cases ok
  | ok a =>
    cases ok
    exact AttributeValue.ofBool_hasType (f a)

namespace Expression

mutual

/-- The type of the values of an expression. A reference has the declared one. -/
def staticType (catalog : Catalog) : Expression → StaticType
  | literal v => v.staticType
  | ref a => ((catalog.get? a.category a.name).getD a).staticType
  | call f es => f.resultType (firstType catalog es)
  | _ => .boolean

def firstType (catalog : Catalog) : List Expression → StaticType
  | [] => ⟨none, .single⟩
  | e :: _ => e.staticType catalog

end

variable {catalog : Catalog} {env : Valuation}

theorem subexpressions_self (e : Expression) : e ∈ e.subexpressions := by
  cases e <;> simp [subexpressions]

theorem WellFormed.sound {e : Expression} (wellFormed : e.WellFormed catalog) : e.Sound catalog :=
  wellFormed e e.subexpressions_self

theorem WellFormed.operand {e : Expression} {es : List Expression}
    (wellFormed : ∀ s ∈ subexpressionsOf es, s.Sound catalog) (member : e ∈ es) : e.WellFormed catalog :=
  fun s inside => wellFormed s (mem_subexpressionsOf.mpr ⟨e, member, inside⟩)

theorem Sound.presence {es : List Expression} (sound : (call .isPresent es).Sound catalog) :
    ∃ a, es = [ref a] := by
  obtain ⟨number, references⟩ := sound
  obtain ⟨e, rfl⟩ := List.length_eq_one_iff.mp number
  obtain ⟨a, rfl⟩ := references rfl e List.mem_cons_self
  exact ⟨a, rfl⟩

theorem collect_ok {es : List Expression} {vs : List AttributeValue}
    (ok : collect (eagerAll env es) = .ok vs) : List.Forall₂ (fun e v => e.eager env = .ok v) es vs := by
  induction es generalizing vs with
  | nil =>
    cases ok
    exact .nil
  | cons e es ih =>
    rw [eagerAll, collect_cons, bind_eq_ok] at ok
    obtain ⟨v, head, ok⟩ := ok
    obtain ⟨rest, tail, ok⟩ := bind_eq_ok.mp ok
    cases ok
    exact .cons head (ih tail)

theorem eager_hasType (conforms : ∀ a v, env a = .ok v → v.conformsTo a = true) {e : Expression}
    (wellFormed : e.WellFormed catalog) {v : AttributeValue} (ok : e.eager env = .ok v) :
    v.HasType (e.staticType catalog) := by
  induction e generalizing v with
  | literal w =>
    cases ok
    have uniform := wellFormed.sound
    exact AttributeValue.staticType_hasType fun b same => by rwa [same] at uniform
  | ref a =>
    have declared : catalog.get? a.category a.name = some a := wellFormed.sound
    rw [staticType, declared]
    exact AttributeValue.conformsTo_iff.mp (conforms a v ok)
  | compare op l r left right =>
    rw [compare_eager] at ok
    obtain ⟨a, _, ok⟩ := bind_eq_ok.mp ok
    obtain ⟨b, _, ok⟩ := bind_eq_ok.mp ok
    exact map_ofBool_hasType ok
  | and es each => exact map_ofBool_hasType ok
  | or es each => exact map_ofBool_hasType ok
  | not e operand => exact map_ofBool_hasType ok
  | call f es each =>
    by_cases test : f = .isPresent
    · subst test
      obtain ⟨a, rfl⟩ := wellFormed.sound.presence
      exact map_ofBool_hasType ok
    · have strict : (collect (eagerAll env es)).bind f.apply = .ok v := by
        simpa only [eager, if_neg test] using ok
      obtain ⟨vs, args, applied⟩ := bind_eq_ok.mp strict
      refine Function.apply_hasType applied fun w first => ?_
      cases collect_ok args with
      | nil => cases first
      | @cons e w' es vs head _ =>
        cases first
        have part : e.WellFormed catalog :=
          .operand (fun s inside => wellFormed s (List.mem_cons_of_mem _ inside)) List.mem_cons_self
        exact each e List.mem_cons_self part head

section

variable {ctx : Context} {c : Cache}

theorem value_hasType {e : Expression} (wellFormed : e.WellFormed catalog) {v : AttributeValue}
    (ok : (e.value ctx c).1 = .ok v) : v.HasType (e.staticType catalog) := by
  rw [e.value_reads.result c (Cache.agrees_snapshot _)] at ok
  exact eager_hasType (fun _ _ => Request.read_conforms) wellFormed ok

theorem values_hasType {es : List Expression} (wellFormed : ∀ s ∈ subexpressionsOf es, s.Sound catalog)
    {vs : List AttributeValue} (ok : (values ctx es c).1 = .ok vs) :
    List.Forall₂ (fun e v => v.HasType (staticType catalog e)) es vs := by
  rw [(values_reads es fun e _ => e.value_reads).result c (Cache.agrees_snapshot _)] at ok
  have args := collect_ok ok
  rw [List.forall₂_iff_get] at args ⊢
  obtain ⟨number, each⟩ := args
  refine ⟨number, fun i h₁ h₂ => ?_⟩
  exact eager_hasType (fun _ _ => Request.read_conforms) (.operand wellFormed (List.get_mem es _))
    (each i h₁ h₂)

theorem value_compare_ok {op : CompareOp} {l r : Expression} {a b : AttributeValue}
    (left : (l.value ctx c).1 = .ok a) (right : (r.value ctx (l.value ctx c).2).1 = .ok b) :
    ((compare op l r).value ctx c).1 = (op.apply a b).map .ofBool := by
  rcases first : l.value ctx c with ⟨x, d⟩
  rw [first] at left right
  rcases second : r.value ctx d with ⟨y, d'⟩
  rw [second] at right
  cases left
  cases right
  simp only [value, first, second]

theorem value_call_ok {f : Function} (other : f ≠ .isPresent)
    {es : List Expression} {vs : List AttributeValue}
    (args : (values ctx es c).1 = .ok vs) : ((call f es).value ctx c).1 = f.apply vs := by
  rcases first : values ctx es c with ⟨x, d⟩
  rw [first] at args
  cases args
  simp only [value, if_neg other, first]

end

theorem subexpressions_subset {e s : Expression} (inside : s ∈ e.subexpressions) :
    s.subexpressions ⊆ e.subexpressions := by
  have operands (es : List Expression)
      (each : ∀ e ∈ es, s ∈ e.subexpressions → s.subexpressions ⊆ e.subexpressions)
      (inside : s ∈ subexpressionsOf es) : s.subexpressions ⊆ subexpressionsOf es := by
    obtain ⟨e, member, inside⟩ := mem_subexpressionsOf.mp inside
    exact fun t deeper => mem_subexpressionsOf.mpr ⟨e, member, each e member inside deeper⟩
  have below {e : Expression} {parts : List Expression} (shape : e.subexpressions = e :: parts)
      (inside : s ∈ e.subexpressions) (deeper : s ∈ parts → s.subexpressions ⊆ parts) :
      s.subexpressions ⊆ e.subexpressions := by
    rw [shape] at inside
    rcases List.mem_cons.mp inside with rfl | inside
    · exact List.Subset.refl _
    · rw [shape]
      exact List.subset_cons_of_subset _ (deeper inside)
  induction e with
  | literal v => exact below rfl inside fun none => absurd none List.not_mem_nil
  | ref a => exact below rfl inside fun none => absurd none List.not_mem_nil
  | compare op l r left right =>
    refine below rfl inside fun inside => ?_
    rcases List.mem_append.mp inside with inside | inside
    · exact List.subset_append_of_subset_left _ (left inside)
    · exact List.subset_append_of_subset_right _ (right inside)
  | and es each => exact below rfl inside (operands es each)
  | or es each => exact below rfl inside (operands es each)
  | not e operand => exact below rfl inside operand
  | call f es each => exact below rfl inside (operands es each)

theorem WellFormed.part {e s : Expression} (wellFormed : e.WellFormed catalog)
    (inside : s ∈ e.subexpressions) :
    s.WellFormed catalog := fun t deeper => wellFormed t (subexpressions_subset inside deeper)

/-- How an expression of an accepted policy evaluates, from any cache. -/
structure Typed (catalog : Catalog) (ctx : Context) (s : Expression) : Prop where
  typed : ∀ c v, (s.value ctx c).1 = .ok v → v.HasType (s.staticType catalog)
  uniform : ∀ c b, (s.value ctx c).1 = .ok (.bag b) → b.Uniform
  compares : ∀ op l r, s = compare op l r → op.takesBags → ∀ c a b, (l.value ctx c).1 = .ok (.bag a) →
    (r.value ctx (l.value ctx c).2).1 = .ok (.bag b) → a.Judges b (s.value ctx c).1
  intersects : ∀ es, s = call .intersects es → ∀ c a b, (values ctx es c).1 = .ok [.bag a, .bag b] →
    a.Judges b (s.value ctx c).1
  applies : ∀ f es, s = call f es → f ≠ .isPresent → ∀ c vs, (values ctx es c).1 = .ok vs →
    vs.length = f.arity ∧ (s.value ctx c).1 = f.apply vs
  tests : ∀ es, s = call .isPresent es → ∃ a, es = [ref a] ∧
    ∀ c, s.value ctx c = ((presence (c.lookup ctx a).1).map .ofBool, (c.lookup ctx a).2)

theorem WellFormed.typed {s : Expression} (wellFormed : s.WellFormed catalog) (ctx : Context) :
    s.Typed catalog ctx where
  typed c v ok := value_hasType wellFormed ok
  uniform c b ok := (value_hasType wellFormed ok).uniform
  compares := by
    rintro op l r rfl takes c a b left right
    have first : l.WellFormed catalog := wellFormed.part (by simp [subexpressions, subexpressions_self])
    have second : r.WellFormed catalog := wellFormed.part (by simp [subexpressions, subexpressions_self])
    rw [value_compare_ok left right]
    exact CompareOp.apply_judges takes (value_hasType first left).uniform (value_hasType second right).uniform
  intersects := by
    rintro es rfl c a b args
    have types := values_hasType (fun s inside => wellFormed s (List.mem_cons_of_mem _ inside)) args
    rw [value_call_ok (by decide) args]
    cases types with
    | cons first rest =>
      cases rest with
      | cons second _ => exact Function.intersects_judges first.uniform second.uniform
  applies := by
    rintro f es rfl other c vs args
    have types := values_hasType (fun s inside => wellFormed s (List.mem_cons_of_mem _ inside)) args
    exact ⟨types.length_eq.symm.trans wellFormed.sound.1, value_call_ok other args⟩
  tests := by
    rintro es rfl
    obtain ⟨a, rfl⟩ := wellFormed.sound.presence
    exact ⟨a, rfl, value_presence ctx a⟩

end Expression

/-- Every expression inside an accepted policy keeps to its static type: the bags that its comparisons
meet are uniform, and its functions get the arguments that they are made for. -/
theorem Policy.validate_typed {catalog : Catalog} {maxDepth : Nat} {p : Policy}
    (valid : p.validate catalog maxDepth = .ok ()) (ctx : Context) :
    ∀ q ∈ p.nodes, ∀ e ∈ q.expressions, ∀ s ∈ e.subexpressions, s.Typed catalog ctx := by
  intro q node e expression s inside
  have wellFormed := ((validate_ok.mp valid).nodes q node).expressions e expression
  exact (wellFormed.part inside).typed ctx

theorem Policy.validate_typed_levels :
    let roles : AttributeId := ⟨.subject, "roles", .string, .bag⟩
    let levels : AttributeId := ⟨.resource, "levels", .integer, .bag⟩
    let within : Expression := .compare .isIn (.ref roles) (.ref levels)
    let p : Policy := .rule ⟨"levels", none, some (.not within), .permit, []⟩
    let request : Request := ⟨"alice", "view", "doc123", ⟨2024, 1, 1, 0, 0, 0, 0, by decide⟩, []⟩
    let ctx : Context :=
      ⟨request, fun _ _ a =>
        .ok (some (.bag (.ofList (if a = roles then [.string "clerk"] else [.integer 3]))))⟩
    p.validate ⟨[levels, roles]⟩ 1 = .ok () ∧ within.Typed ⟨[levels, roles]⟩ ctx ∧
      (within.value ctx .empty).1 =
        .error (.typeMismatch "cannot look for bag of string in bag of integer") := by
  intro roles levels within p request ctx
  have valid : p.validate ⟨[levels, roles]⟩ 1 = .ok () := rfl
  have typed := validate_typed valid ctx p List.mem_cons_self (.not within) List.mem_cons_self within
  exact ⟨valid, typed (List.mem_cons_of_mem _ List.mem_cons_self), rfl⟩

end AccessControl
