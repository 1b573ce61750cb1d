import AccessControl.Json.Record

namespace AccessControl.Json

theorem lookup_of_mem {fields : List (String × Json)} (distinct : (fields.map Prod.fst).Nodup)
    {f : String × Json} (member : f ∈ fields) : fields.lookup f.1 = some f.2 := by
  induction fields with
  | nil => cases member
  | cons g gs ih =>
    rw [List.map_cons, List.nodup_cons] at distinct
    rw [List.lookup_cons]
    rcases List.mem_cons.mp member with rfl | member
    · rw [beq_self_eq_true]
    · have other : f.1 ≠ g.1 := fun same => distinct.1 (same ▸ List.mem_map_of_mem member)
      rw [beq_false_of_ne other]
      exact ih distinct.2 member

theorem record_object {j : Json} {fields : List (String × Json)} {names : List String}
    {values : List (Option Json)}
    (form : j = object fields) (named : fields.map Prod.fst = names)
    (holding : fields.map (fun f => some f.2) = values) (distinct : names.Nodup) :
    j.record names = some values := by
  subst form named holding
  have once : (fields.map Prod.fst).all (fun n => (fields.filter fun f => f.1 == n).length ≤ 1) := by
    rw [List.all_eq_true]
    intro n _
    have count := List.nodup_iff_count.mp distinct n
    rw [List.count, List.countP_map, List.countP_eq_length_filter] at count
    exact decide_eq_true count
  rw [record, if_pos once, List.map_map]
  exact congrArg some (List.map_congr_left fun f member => lookup_of_mem distinct member)

theorem list_map {α : Type} {encode : α → Json} {decode : Json → Option α} {xs : List α}
    (each : ∀ x ∈ xs, decode (encode x) = some x) : list decode (array (xs.map encode)) = some xs := by
  have items : (xs.map encode).mapM decode = some xs := by
    induction xs with
    | nil => rfl
    | cons x xs ih =>
      obtain ⟨head, tail⟩ := List.forall_mem_cons.mp each
      simp [List.mapM_cons, head, ih tail]
  exact items

theorem list_of_doubles {α : Type} {encode : α → Json} {decode : Json → Option α} {doubles : α → List Double}
    {P : Double → Prop} {xs : List α} (all : ∀ d ∈ xs.flatMap doubles, P d)
    (each : ∀ x ∈ xs, (∀ d ∈ doubles x, P d) → decode (encode x) = some x) :
    list decode (array (xs.map encode)) = some xs :=
  list_map fun x member => each x member fun d inside => all d (List.mem_flatMap_of_mem member inside)

theorem depth_record (fields : List (String × Json)) :
    (object fields).depth = 1 + depthOfFields fields := by
  rw [depth]

theorem depth_variant (tag : String) (j : Json) : (object [(tag, j)]).depth = 1 + j.depth := by
  rw [depth, depthOfFields, depthOfFields, Nat.max_zero]

theorem depth_item_lt {items : List Json} {j : Json} (member : j ∈ items) :
    j.depth < (array items).depth := by
  rw [depth]
  induction items with
  | nil => cases member
  | cons i is ih =>
    rw [depthOfItems]
    rcases List.mem_cons.mp member with rfl | member
    · omega
    · have := ih member
      omega

theorem depth_field_lt {fields : List (String × Json)} {f : String × Json} (member : f ∈ fields) :
    f.2.depth < (object fields).depth := by
  rw [depth]
  induction fields with
  | nil => cases member
  | cons g gs ih =>
    rw [depthOfFields]
    rcases List.mem_cons.mp member with rfl | member
    · omega
    · have := ih member
      omega

end AccessControl.Json
