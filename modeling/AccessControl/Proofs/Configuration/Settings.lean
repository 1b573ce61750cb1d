import AccessControl.Configuration.Load
import AccessControl.Toml.Equality

namespace AccessControl

namespace Toml

def isTable : Toml → Bool
  | .table _ => true
  | _ => false

def isEmptyTable : Toml → Bool
  | .table [] => true
  | _ => false

/-- The same for a setting, as none takes a table: equal, or both tables. -/
def Agrees (v w : Toml) : Prop := v = w ∨ v.isTable = true ∧ w.isTable = true

theorem exists_fields {v : Toml} (table : v.isTable = true) : ∃ fs, v = .table fs := by
  cases v with
  | table fs => exact ⟨fs, rfl⟩
  | _ => cases table

end Toml

inductive Setting where
  | auditDecisions
  | maxDepth
  | policyPath
  | logLevel
deriving DecidableEq

namespace Setting

def place : Setting → String × String
  | auditDecisions => ("pdp", "audit_decisions")
  | maxDepth => ("pdp", "max_depth")
  | policyPath => ("policy", "path")
  | logLevel => ("logging", "level")

def default : Setting → Toml
  | auditDecisions => .boolean true
  | maxDepth => .integer 64
  | policyPath => .string "policy.json"
  | logLevel => .string "info"

def groups : List String := ["pdp", "policy", "logging"]

theorem group_mem (s : Setting) : s.place.1 ∈ groups := by
  cases s <;> decide

end Setting

namespace Layer

structure Assignment where
  place : String × String
  value : Toml

def nested (v : Toml) (keys : List String) : Toml := keys.foldr (fun k v => .table [(k, v)]) v

/-- What a value says at a path of keys. -/
def assignments (v : Toml) : List String → List Assignment
  | [] => []
  | [group] => v.fields.map fun (key, w) => ⟨(group, key), w⟩
  | group :: key :: keys => [⟨(group, key), nested v keys⟩]

def allAssignments (layer : Layer) : List Assignment :=
  layer.flatMap fun (key, v) => assignments v (keyPath key)

def given (place : String × String) (l : List Assignment) : List Toml :=
  l.filterMap fun a => if a.place = place then some a.value else none

/-- What a layer sets a place to, whatever value that is: of several assignments the last one. -/
def value? (place : String × String) (layer : Layer) : Option Toml :=
  (given place layer.allAssignments).getLast?

/-- What takes the place of the value below. Tables are merged by their keys, so one without keys
takes the place of nothing. -/
def replacement? (place : String × String) (l : List Assignment) : Option Toml :=
  (given place l).reverse.find? fun v => !v.isEmptyTable

/-- No section is set as a whole to anything but a table. -/
def Sectioned (layer : Layer) : Prop :=
  ∀ field ∈ layer, ∀ group ∈ Setting.groups, keyPath field.1 = [group] → field.2.isTable = true

instance (layer : Layer) : Decidable layer.Sectioned :=
  inferInstanceAs (Decidable (∀ field ∈ layer, ∀ group ∈ Setting.groups,
    keyPath field.1 = [group] → field.2.isTable = true))

end Layer

/-- The value of the highest layer that sets it, or else the default. The lowest layer stands first. -/
def Setting.topmost (layers : List Layer) (s : Setting) : Toml :=
  (layers.reverse.findSome? (Layer.value? s.place)).getD s.default

/-- The value of the highest layer that sets it to anything but an empty table, or else the
default. -/
def Setting.value (layers : List Layer) (s : Setting) : Toml :=
  (layers.reverse.findSome? fun l => Layer.replacement? s.place l.allAssignments).getD s.default

namespace Layer

variable {place : String × String} {key : String} {l m : List Assignment} {v w u tree : Toml}
  {fs gs : List (String × Toml)}

/-! Assignments one after another. What a list of them leaves is written with `getD`, so that each one
decides about the value before it. -/

theorem replacement?_append :
    replacement? place (l ++ m) = (replacement? place m).or (replacement? place l) := by
  rw [replacement?, given, List.filterMap_append, List.reverse_append, List.find?_append]
  rfl

theorem replacement?_single (a : Assignment) : replacement? place [a] =
    if a.place = place ∧ a.value.isEmptyTable = false then some a.value else none := by
  by_cases here : a.place = place
  · cases empty : a.value.isEmptyTable <;> simp [replacement?, given, here, empty]
  · simp [replacement?, given, here]

theorem replacement?_elsewhere (elsewhere : ∀ a ∈ l, a.place ≠ place) : replacement? place l = none := by
  have none : given place l = [] :=
    List.filterMap_eq_nil_iff.mpr fun a member => if_neg (elsewhere a member)
  rw [replacement?, none]
  rfl

theorem getD_replacement?_cons (a : Assignment) : (replacement? place (a :: l)).getD u =
    (replacement? place l).getD ((replacement? place [a]).getD u) := by
  rw [← List.singleton_append, replacement?_append, Option.getD_or]

theorem getD_allAssignments_cons (field : String × Toml) (layer : Layer) :
    (replacement? place (allAssignments (field :: layer))).getD u =
      (replacement? place layer.allAssignments).getD
        ((replacement? place (assignments field.2 (keyPath field.1))).getD u) := by
  rw [allAssignments, List.flatMap_cons, replacement?_append, Option.getD_or, allAssignments]

theorem replacement?_eq_value? {layer : Layer} (full : .table [] ∉ given place layer.allAssignments) :
    replacement? place layer.allAssignments = layer.value? place := by
  have counts : ∀ v ∈ (given place layer.allAssignments).reverse, (!v.isEmptyTable) = true := by
    intro v member
    have listed := List.mem_reverse.mp member
    cases v with
    | table fs =>
      cases fs with
      | nil => exact absurd listed full
      | cons field fs => rfl
    | _ => rfl
  rw [replacement?, value?, ← List.head?_reverse, ← List.head?_filter, List.filter_eq_self.mpr counts]

theorem assignments_group (v : Toml) (k : String) (keys : List String) :
    ∀ a ∈ assignments v (k :: keys), a.place.1 = k := by
  intro a member
  cases keys with
  | nil =>
    obtain ⟨field, _, rfl⟩ := List.mem_map.mp member
    rfl
  | cons key keys =>
    obtain rfl := List.mem_singleton.mp member
    rfl

/-! Values over values. -/

theorem lookup_put (k : String) (v : Toml) (fs : Layer) (key : String) :
    (put k v fs).lookup key = if key = k then some v else fs.lookup key := by
  induction fs with
  | nil => grind [put]
  | cons field fs ih => grind [put]

theorem overlayFields_isTable (fs : List (String × Toml)) (lower : v.isTable = true) :
    (overlayFields fs v).isTable = true := by
  induction fs generalizing v with
  | nil => exact lower
  | cons field fs ih => exact ih rfl

theorem overlay_agrees (agrees : v.Agrees u) :
    (overlay w (some v)).Agrees (if w.isEmptyTable = false then w else u) := by
  cases w with
  | table fs =>
    cases fs with
    | nil => exact agrees
    | cons field fs => exact .inr ⟨overlayFields_isTable fs rfl, rfl⟩
  | _ => exact .inl rfl

theorem place_agrees (agrees : v.Agrees u) (keys : List String) :
    (Layer.place w keys (some v)).Agrees
      (if (nested w keys).isEmptyTable = false then nested w keys else u) := by
  cases keys with
  | nil => exact overlay_agrees agrees
  | cons key keys => exact .inr ⟨rfl, rfl⟩

def Holds (fs : List (String × Toml)) (key : String) (u : Toml) : Prop :=
  ∃ v, fs.lookup key = some v ∧ v.Agrees u

theorem Holds.put (holds : Holds gs key u) (group k : String) (keys : List String) (w : Toml) :
    Holds (put k (Layer.place w keys (gs.lookup k)) gs) key
      ((replacement? (group, key) [⟨(group, k), nested w keys⟩]).getD u) := by
  rw [replacement?_single]
  obtain ⟨v, found, agrees⟩ := holds
  by_cases same : k = key
  · subst same
    have placed := place_agrees (w := w) agrees keys
    refine ⟨Layer.place w keys (some v), by rw [lookup_put, if_pos rfl, found], ?_⟩
    by_cases counts : (nested w keys).isEmptyTable = false <;> simpa [counts] using placed
  · refine ⟨v, by rw [lookup_put, if_neg (Ne.symm same), found], ?_⟩
    simpa [same] using agrees

theorem Holds.overlayFields (holds : Holds gs key u) (group : String) (fs : List (String × Toml)) :
    ∃ hs, Layer.overlayFields fs (.table gs) = .table hs ∧
      Holds hs key ((replacement? (group, key) (assignments (.table fs) [group])).getD u) := by
  induction fs generalizing gs u with
  | nil => exact ⟨gs, rfl, holds⟩
  | cons field fs ih =>
    obtain ⟨hs, laid, held⟩ := ih (holds.put group field.1 [] field.2)
    refine ⟨hs, laid, ?_⟩
    rw [assignments, Toml.fields, List.map_cons, getD_replacement?_cons]
    exact held

theorem Holds.placed {keys : List String} (holds : Holds gs key u) (group : String)
    (sectioned : keys = [] → v.isTable = true) :
    ∃ hs, Layer.place v keys (some (.table gs)) = .table hs ∧
      Holds hs key ((replacement? (group, key) (assignments v (group :: keys))).getD u) := by
  cases keys with
  | nil =>
    obtain ⟨fs, rfl⟩ := Toml.exists_fields (sectioned rfl)
    exact holds.overlayFields group fs
  | cons k keys =>
    refine ⟨_, rfl, ?_⟩
    rw [assignments]
    exact holds.put group k keys v

/-! Layers over a tree. -/

theorem keyParts_ne_nil (cs : List Char) : keyParts cs ≠ [] := by
  induction cs with
  | nil => exact List.cons_ne_nil _ _
  | cons c cs ih =>
    rw [keyParts]
    split
    · exact List.cons_ne_nil _ _
    · exact fun empty => ih (List.modifyHead_eq_nil_iff.mp empty)

theorem keyPath_ne_nil (key : String) : keyPath key ≠ [] := by
  simp only [keyPath]
  split
  · exact fun empty => keyParts_ne_nil _ (List.map_eq_nil_iff.mp empty)
  · exact List.cons_ne_nil _ _

/-- The tree has the section of the place, and there a value that stands for this one. -/
def Carries (tree : Toml) (place : String × String) (u : Toml) : Prop :=
  ∃ fs, tree.get? place.1 = some (.table fs) ∧ Holds fs place.2 u

theorem get?_place (v : Toml) (k : String) (keys : List String) (tree : Toml) (group : String) :
    (Layer.place v (k :: keys) (some tree)).get? group =
      if group = k then some (Layer.place v keys (tree.get? k)) else tree.get? group :=
  lookup_put k (Layer.place v keys (tree.get? k)) tree.fields group

theorem Carries.placed {path : List String} (carries : Carries tree place u) (named : path ≠ [])
    (sectioned : path = [place.1] → v.isTable = true) :
    Carries (Layer.place v path (some tree)) place ((replacement? place (assignments v path)).getD u) := by
  obtain ⟨group, key⟩ := place
  obtain ⟨gs, found, holds⟩ := carries
  cases path with
  | nil => exact absurd rfl named
  | cons k keys =>
    by_cases same : group = k
    · subst same
      obtain ⟨hs, placed, held⟩ := holds.placed group fun last : keys = [] => sectioned (by rw [last])
      refine ⟨hs, ?_, held⟩
      rw [get?_place, if_pos rfl, found, placed]
    · -- a path into another section assigns nothing to this place
      have elsewhere : replacement? (group, key) (assignments v (k :: keys)) = none :=
        replacement?_elsewhere fun a member here =>
          same ((congrArg Prod.fst here).symm.trans (assignments_group v k keys a member))
      refine ⟨gs, ?_, by rwa [elsewhere]⟩
      rw [get?_place, if_neg same, found]

theorem Carries.mergeInto {layer : Layer} (carries : Carries tree place u)
    (sectioned : ∀ field ∈ layer, keyPath field.1 = [place.1] → field.2.isTable = true) :
    Carries (layer.mergeInto tree) place ((replacement? place layer.allAssignments).getD u) := by
  induction layer generalizing tree u with
  | nil => exact carries
  | cons field layer ih =>
    obtain ⟨first, rest⟩ := List.forall_mem_cons.mp sectioned
    rw [getD_allAssignments_cons]
    exact ih (carries.placed (keyPath_ne_nil field.1) first) rest

/-- Of layers one over another the highest one that sets a place counts. -/
theorem Carries.merge {layers : List Layer} (carries : Carries tree place u)
    (sectioned : ∀ layer ∈ layers, ∀ field ∈ layer, keyPath field.1 = [place.1] → field.2.isTable = true) :
    Carries (layers.foldl (fun tree layer => layer.mergeInto tree) tree) place
      ((layers.reverse.findSome? fun l => replacement? place l.allAssignments).getD u) := by
  induction layers generalizing tree u with
  | nil => exact carries
  | cons layer layers ih =>
    obtain ⟨first, rest⟩ := List.forall_mem_cons.mp sectioned
    rw [List.reverse_cons, List.findSome?_append, Option.getD_or, List.findSome?_singleton]
    exact ih (carries.mergeInto first) rest

end Layer

namespace Configuration

theorem default_merged : default.layer.mergeInto (.table []) = .table default.layer := by
  have pdp : Layer.keyPath "pdp" = ["pdp"] := by decide
  have policy : Layer.keyPath "policy" = ["policy"] := by decide
  have logging : Layer.keyPath "logging" = ["logging"] := by decide
  simp only [layer, Layer.mergeInto, List.foldl_cons, List.foldl_nil, pdp, policy, logging]
  rfl

theorem default_carries (s : Setting) :
    Layer.Carries (default.layer.mergeInto (.table [])) s.place s.default := by
  rw [default_merged]
  cases s <;> exact ⟨_, rfl, _, rfl, .inl rfl⟩

theorem merged_carries {layers : List Layer} (sectioned : ∀ layer ∈ layers, layer.Sectioned)
    (s : Setting) : Layer.Carries (merged layers) s.place (s.value layers) :=
  (default_carries s).merge fun layer member field within =>
    sectioned layer member field within s.place.1 s.group_mem

end Configuration

end AccessControl
