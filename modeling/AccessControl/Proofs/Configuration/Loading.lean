import Mathlib.Tactic.Choose
import AccessControl.Proofs.Configuration.Settings
import AccessControl.Proofs.Fallible

namespace AccessControl

namespace Toml

variable {v w : Toml} {α : Type}

theorem Agrees.congr (agrees : v.Agrees w) (take : Toml → Option α)
    (refuses : ∀ fs, take (.table fs) = none) : take v = take w := by
  rcases agrees with rfl | ⟨table, other⟩
  · rfl
  · obtain ⟨fs, rfl⟩ := exists_fields table
    obtain ⟨gs, rfl⟩ := exists_fields other
    rw [refuses, refuses]

theorem get?_eq_some {tree : Toml} {key : String} (found : tree.get? key = some v) :
    ∃ fs, tree = .table fs ∧ fs.lookup key = some v := by
  cases tree with
  | table fs => exact ⟨fs, rfl, found⟩
  | _ => cases found

end Toml

namespace Configuration

variable {value : Setting → Toml} {layers : List Layer} {tree : Toml} {c : Configuration}
  {directory : String}

def converted? (value : Setting → Toml) : Option Configuration := do
  let auditDecisions ← (value .auditDecisions).toBool?
  let maxDepth ← (value .maxDepth).toNat?
  let path ← (value .policyPath).toText?
  let level ← (value .logLevel).toText?
  some ⟨⟨auditDecisions, maxDepth⟩, path, level⟩

def ofValues (value : Setting → Toml) (directory : String) : Except LoadError Configuration :=
  match converted? value with
  | none => .error .mistyped
  | some c =>
    match c.validate with
    | .error cause => .error (.invalid cause)
    | .ok () => .ok (c.resolve directory)

theorem read_fields {fs : List (String × Toml)} {group : Setting → List (String × Toml)}
    {found : Setting → Toml} (groupAt : ∀ s, fs.lookup s.place.1 = some (.table (group s)))
    (foundAt : ∀ s, (group s).lookup s.place.2 = some (found s)) :
    Configuration.read Toml.converting (.table fs) = converted? found := by
  have pdp : fs.lookup "pdp" = some (.table (group .auditDecisions)) := groupAt .auditDecisions
  have policy : fs.lookup "policy" = some (.table (group .policyPath)) := groupAt .policyPath
  have logging : fs.lookup "logging" = some (.table (group .logLevel)) := groupAt .logLevel
  have shared : group .maxDepth = group .auditDecisions := by
    have same := (groupAt .maxDepth).symm.trans pdp
    injection same with same
    injection same
  have audit : (group .auditDecisions).lookup "audit_decisions" = some (found .auditDecisions) :=
    foundAt .auditDecisions
  have depth : (group .auditDecisions).lookup "max_depth" = some (found .maxDepth) :=
    shared ▸ foundAt .maxDepth
  have path : (group .policyPath).lookup "path" = some (found .policyPath) := foundAt .policyPath
  have level : (group .logLevel).lookup "level" = some (found .logLevel) := foundAt .logLevel
  simp only [Configuration.read, Reading.part, Toml.converting, Toml.toRecord?, List.map_cons, List.map_nil,
    pdp, policy, logging, audit, depth, path, level, Reading.field, Option.bind_eq_bind, Option.bind_some,
    converted?]

theorem converted?_congr {found : Setting → Toml} (agrees : ∀ s, (found s).Agrees (value s)) :
    converted? found = converted? value := by
  rw [converted?, (agrees _).congr Toml.toBool? fun _ => rfl, (agrees _).congr Toml.toNat? fun _ => rfl,
    (agrees .policyPath).congr Toml.toText? fun _ => rfl, (agrees .logLevel).congr Toml.toText? fun _ => rfl,
    converted?]

theorem read_carried (carries : ∀ s : Setting, Layer.Carries tree s.place (value s)) :
    Configuration.read Toml.converting tree = converted? value := by
  choose group groupAt found foundAt agrees using carries
  obtain ⟨fs, rfl, _⟩ := Toml.get?_eq_some (groupAt .auditDecisions)
  exact (read_fields groupAt foundAt).trans (converted?_congr agrees)

theorem ofLayers_eq_ofValues (sectioned : ∀ layer ∈ layers, layer.Sectioned) (directory : String) :
    ofLayers layers directory = ofValues (Setting.value layers) directory := by
  have read := read_carried (merged_carries sectioned)
  unfold ofLayers ofValues
  exact read ▸ rfl

theorem converted?_path (converted : converted? value = some c) :
    (value .policyPath).toText? = some c.policyPath := by
  simp only [converted?, Option.bind_eq_bind, Option.bind_eq_some_iff] at converted
  obtain ⟨audit, _, depth, _, path, text, level, _, made⟩ := converted
  cases made
  exact text

theorem ofValues_eq_ok :
    ofValues value directory = .ok c ↔
      ∃ d, converted? value = some d ∧ d.validate = .ok () ∧ c = d.resolve directory := by
  rw [ofValues]
  cases converted? value with
  | none => simp
  | some d =>
    cases checked : d.validate with
    | error cause => simp [checked]
    | ok => simp [checked, eq_comm]

example (directory : String) : ofValues Setting.default directory = .ok (default.resolve directory) :=
  ofValues_eq_ok.mpr ⟨default, rfl, by decide +kernel, rfl⟩

theorem validate_resolve (c : Configuration) (directory : String) :
    (c.resolve directory).validate = c.validate := rfl

theorem join_eq_ite (directory path : String) :
    Path.join directory path = if Path.isAbsolute path then path else Path.join directory path := by
  by_cases absolute : Path.isAbsolute path = true
  · rw [if_pos absolute, Path.join, absolute, Bool.true_or, if_pos rfl]
  · rw [if_neg absolute]

theorem value_eq_topmost {setting : Setting}
    (full : ∀ layer ∈ layers, .table [] ∉ Layer.given setting.place layer.allAssignments) :
    setting.value layers = setting.topmost layers := by
  have same : layers.reverse.filterMap (fun l => Layer.replacement? setting.place l.allAssignments) =
      layers.reverse.filterMap (Layer.value? setting.place) :=
    List.filterMap_congr fun layer member =>
      Layer.replacement?_eq_value? (full layer (List.mem_reverse.mp member))
  rw [Setting.value, Setting.topmost, ← List.head?_filterMap, same, List.head?_filterMap]

end Configuration

end AccessControl
