import AccessControl.Document.Request
import AccessControl.Proofs.Fallible

namespace AccessControl

/-- The JSON value stands for this value of the type. -/
inductive Json.Denotes : ValueType → Json → Value → Prop where
  | boolean (b : Bool) : Denotes .boolean (.bool b) (.boolean b)
  | string (s : String) : Denotes .string (.string s) (.string s)
  | integer (n : Int64) : Denotes .integer (.integer n.toInt) (.integer n)
  | whole (n : Int) : Denotes .double (.integer n) (.double (.ofInt n))
  | double (d : Double) : Denotes .double (.double d) (.double d)
  | dateTime {s : String} {t : Instant} (read : Instant.readStrict s = some t) :
    Denotes .dateTime (.string s) (.dateTime t)

def Json.IsArray (j : Json) : Prop := ∃ items, j = .array items

theorem Json.Denotes.valueType {t : ValueType} {j : Json} {v : Value} (denotes : j.Denotes t v) :
    v.valueType = t := by
  cases denotes <;> rfl

theorem Json.Denotes.not_isArray {t : ValueType} {j : Json} {v : Value} (denotes : j.Denotes t v) :
    ¬j.IsArray := by
  rintro ⟨items, rfl⟩
  cases denotes

theorem Json.int64?_eq_some {j : Json} {n : Int64} : j.int64? = some n ↔ j = .integer n.toInt := by
  constructor
  · intro read
    unfold int64? at read
    split at read
    · split at read
      · rename_i m range
        cases read
        rw [Int64.toInt_ofInt_of_le range.1 (Int.lt_of_le_of_lt range.2 (by decide))]
      · cases read
    · cases read
  · rintro rfl
    have range : Int64.minValue.toInt ≤ n.toInt ∧ n.toInt ≤ Int64.maxValue.toInt :=
      ⟨n.minValue_le_toInt, n.toInt_le⟩
    rw [int64?, if_pos range, Int64.ofInt_toInt]

namespace AttributeId

theorem scalar?_eq_some {t : ValueType} {j : Json} {v : Value} : scalar? t j = some v ↔ j.Denotes t v := by
  constructor
  · intro read
    unfold scalar? at read
    split at read
    · cases read
      exact .boolean _
    · cases read
      exact .string _
    · obtain ⟨n, integer, rfl⟩ := Option.map_eq_some_iff.mp read
      rw [Json.int64?_eq_some.mp integer]
      exact .integer n
    · obtain ⟨d, double, rfl⟩ := Option.map_eq_some_iff.mp read
      unfold Json.double? at double
      split at double <;> cases double
      · exact .whole _
      · exact .double _
    · obtain ⟨t, instant, rfl⟩ := Option.map_eq_some_iff.mp read
      exact .dateTime instant
    · cases read
  · intro denotes
    cases denotes with
    | integer n => rw [scalar?, Json.int64?_eq_some.mpr rfl, Option.map_some]
    | dateTime read => rw [scalar?, read, Option.map_some]
    | _ => rfl

variable {a : AttributeId} {j : Json} {e : RequestError}

theorem scalar_eq_ok {v : Value} : a.scalar j = .ok v ↔ j.Denotes a.valueType v := by
  rw [← scalar?_eq_some, scalar]
  cases scalar? a.valueType j <;> simp

theorem scalar_eq_error : a.scalar j = .error e ↔
    (∀ v, ¬j.Denotes a.valueType v) ∧ e = .invalidValue a a.valueType.text j.compact := by
  simp only [← scalar?_eq_some, scalar]
  cases scalar? a.valueType j <;> simp [eq_comm]

theorem scalars_eq_mapM (a : AttributeId) (js : List Json) : a.scalars js = js.mapM a.scalar := by
  induction js with
  | nil => rfl
  | cons j js ih =>
    rw [scalars, ih, mapM_cons_except]
    rfl

/-- What the attribute takes from the JSON value. -/
inductive Takes (a : AttributeId) : Json → AttributeValue → Prop where
  | single {j : Json} {v : Value} (one : a.multiplicity = .single) (denotes : j.Denotes a.valueType v) :
    Takes a j (.simple v)
  | lone {j : Json} {v : Value} (many : a.multiplicity = .bag) (denotes : j.Denotes a.valueType v) :
    Takes a j (.bag (.ofList [v]))
  | items {js : List Json} {vs : List Value} (many : a.multiplicity = .bag)
    (denote : List.Forall₂ (fun j v => j.Denotes a.valueType v) js vs) :
    Takes a (.array js) (.bag (.ofList vs))

/-- The attribute does not take the JSON value: what it expects and what it finds instead. -/
inductive Rejects (a : AttributeId) : Json → String → String → Prop where
  | array {js : List Json} (one : a.multiplicity = .single) :
    Rejects a (.array js) ("a single " ++ a.valueType.text) "an array"
  | scalar {j : Json} (plain : ¬j.IsArray) (untyped : ∀ v, ¬j.Denotes a.valueType v) :
    Rejects a j a.valueType.text j.compact
  | item {before after : List Json} {j : Json} (many : a.multiplicity = .bag)
    (earlier : ∀ i ∈ before, ∃ v, i.Denotes a.valueType v) (untyped : ∀ v, ¬j.Denotes a.valueType v) :
    Rejects a (.array (before ++ j :: after)) a.valueType.text j.compact

theorem Takes.conforms {v : AttributeValue} (takes : a.Takes j v) : v.conformsTo a = true := by
  cases takes with
  | single one denotes => simp [AttributeValue.conformsTo, one, denotes.valueType]
  | lone many denotes => simp [AttributeValue.conformsTo, many, Bag.ofList, denotes.valueType]
  | @items js vs many denote =>
    have typed : ∀ v ∈ vs, v.valueType = a.valueType := by
      induction denote with
      | nil => simp
      | cons denotes _ ih => exact List.forall_mem_cons.mpr ⟨denotes.valueType, ih⟩
    simpa [AttributeValue.conformsTo, many, Bag.ofList] using typed

theorem typed_single (one : a.multiplicity = .single) (plain : ¬j.IsArray) :
    a.typed j = (a.scalar j).map .simple := by
  unfold typed
  rw [one]
  cases j with
  | array js => exact absurd ⟨js, rfl⟩ plain
  | _ => rfl

theorem typed_lone (many : a.multiplicity = .bag) (plain : ¬j.IsArray) :
    a.typed j = (a.scalar j).map fun v => .bag (.ofList [v]) := by
  unfold typed
  rw [many]
  cases j with
  | array js => exact absurd ⟨js, rfl⟩ plain
  | _ => rfl

theorem typed_items (many : a.multiplicity = .bag) (js : List Json) :
    a.typed (.array js) = (js.mapM a.scalar).map fun vs => .bag (.ofList vs) := by
  unfold typed
  rw [many, ← scalars_eq_mapM]

theorem typed_array (one : a.multiplicity = .single) (js : List Json) :
    a.typed (.array js) = .error (.invalidValue a ("a single " ++ a.valueType.text) "an array") := by
  unfold typed
  rw [one]

theorem typed_singleton (many : a.multiplicity = .bag) (plain : ¬j.IsArray) :
    a.typed (.array [j]) = a.typed j := by
  rw [typed_items many, typed_lone many plain, mapM_cons_except]
  cases a.scalar j <;> rfl

theorem shapes (a : AttributeId) (j : Json) :
    (a.multiplicity = .single ∧ ¬j.IsArray) ∨ (a.multiplicity = .bag ∧ ¬j.IsArray) ∨
      (a.multiplicity = .bag ∧ j.IsArray) ∨ (a.multiplicity = .single ∧ j.IsArray) := by
  by_cases array : j.IsArray <;> cases multiplicity : a.multiplicity <;> simp [array]

theorem typed_eq_ok {v : AttributeValue} : a.typed j = .ok v ↔ a.Takes j v := by
  constructor
  · intro ok
    rcases a.shapes j with ⟨one, plain⟩ | ⟨many, plain⟩ | ⟨many, js, rfl⟩ | ⟨one, js, rfl⟩
    · rw [typed_single one plain] at ok
      obtain ⟨x, read, rfl⟩ := map_eq_ok.mp ok
      exact .single one (scalar_eq_ok.mp read)
    · rw [typed_lone many plain] at ok
      obtain ⟨x, read, rfl⟩ := map_eq_ok.mp ok
      exact .lone many (scalar_eq_ok.mp read)
    · rw [typed_items many] at ok
      obtain ⟨vs, read, rfl⟩ := map_eq_ok.mp ok
      exact .items many ((mapM_eq_ok.mp read).imp fun j v => scalar_eq_ok.mp)
    · rw [typed_array one] at ok
      cases ok
  · intro takes
    cases takes with
    | single one denotes => rw [typed_single one denotes.not_isArray, scalar_eq_ok.mpr denotes, Except.map]
    | lone many denotes => rw [typed_lone many denotes.not_isArray, scalar_eq_ok.mpr denotes, Except.map]
    | items many denote =>
      have read := mapM_eq_ok.mpr (denote.imp fun j v => (@scalar_eq_ok a j v).mpr)
      rw [typed_items many, read, Except.map]

theorem typed_eq_error : a.typed j = .error e ↔
    ∃ expected found, a.Rejects j expected found ∧ e = .invalidValue a expected found := by
  constructor
  · intro failed
    rcases a.shapes j with ⟨one, plain⟩ | ⟨many, plain⟩ | ⟨many, js, rfl⟩ | ⟨one, js, rfl⟩
    · rw [typed_single one plain, map_eq_error] at failed
      obtain ⟨untyped, rfl⟩ := scalar_eq_error.mp failed
      exact ⟨_, _, .scalar plain untyped, rfl⟩
    · rw [typed_lone many plain, map_eq_error] at failed
      obtain ⟨untyped, rfl⟩ := scalar_eq_error.mp failed
      exact ⟨_, _, .scalar plain untyped, rfl⟩
    · rw [typed_items many, map_eq_error] at failed
      obtain ⟨before, j, after, rfl, earlier, failed⟩ := mapM_eq_error.mp failed
      obtain ⟨untyped, rfl⟩ := scalar_eq_error.mp failed
      have denoted : ∀ i ∈ before, ∃ v, i.Denotes a.valueType v :=
        fun i member => (earlier i member).imp fun v => scalar_eq_ok.mp
      exact ⟨_, _, .item many denoted untyped, rfl⟩
    · rw [typed_array one] at failed
      cases failed
      exact ⟨_, _, .array one, rfl⟩
  · rintro ⟨expected, found, rejects, rfl⟩
    cases rejects with
    | array one => exact typed_array one _
    | scalar plain untyped =>
      have failed := scalar_eq_error.mpr ⟨untyped, rfl⟩
      cases multiplicity : a.multiplicity with
      | single => rw [typed_single multiplicity plain, failed, Except.map]
      | bag => rw [typed_lone multiplicity plain, failed, Except.map]
    | @item before after j many earlier untyped =>
      have read : ∀ i ∈ before, ∃ v, a.scalar i = .ok v :=
        fun i member => (earlier i member).imp fun v => scalar_eq_ok.mpr
      have failed := mapM_eq_error.mpr ⟨before, j, after, rfl, read, scalar_eq_error.mpr ⟨untyped, rfl⟩⟩
      rw [typed_items many, failed, Except.map]

theorem rejects_iff : (∃ expected found, a.Rejects j expected found) ↔ ∀ v, ¬a.Takes j v := by
  simp only [← typed_eq_ok]
  constructor
  · rintro ⟨expected, found, rejects⟩ v ok
    cases ok.symm.trans (typed_eq_error.mpr ⟨expected, found, rejects, rfl⟩)
  · intro untaken
    cases typed : a.typed j with
    | ok v => exact absurd typed (untaken v)
    | error e =>
      obtain ⟨expected, found, rejects, _⟩ := typed_eq_error.mp typed
      exact ⟨expected, found, rejects⟩

end AttributeId

end AccessControl
