import AccessControl.Proofs.Json.Layout
import AccessControl.Proofs.Json.Numbers
import AccessControl.Proofs.Json.Strings

namespace AccessControl.Json

open Text

/-- Values that have a text: integers of 64 bits, and doubles of which `number` holds. -/
inductive Legible (number : Double → Prop) : Json → Prop where
  | null : Legible number null
  | bool (b : Bool) : Legible number (bool b)
  | integer (n : Int64) : Legible number (integer n.toInt)
  | double {d : Double} (legible : number d) : Legible number (double d)
  | string (s : String) : Legible number (string s)
  | array {items : List Json} (each : ∀ j ∈ items, Legible number j) : Legible number (array items)
  | object {fields : List (String × Json)} (each : ∀ f ∈ fields, Legible number f.2) :
    Legible number (object fields)

namespace Legible

variable {number : Double → Prop}

theorem variant {j : Json} (legible : j.Legible number) (tag : String) :
    (Json.object [(tag, j)]).Legible number :=
  object (List.forall_mem_singleton.mpr legible)

theorem list {α : Type} {encode : α → Json} {xs : List α} (each : ∀ x ∈ xs, (encode x).Legible number) :
    (Json.array (xs.map encode)).Legible number :=
  array (List.forall_mem_map.mpr each)

theorem list_of_doubles {α : Type} {encode : α → Json} {doubles : α → List Double} {xs : List α}
    (all : ∀ d ∈ xs.flatMap doubles, number d)
    (each : ∀ x ∈ xs, (∀ d ∈ doubles x, number d) → (encode x).Legible number) :
    (Json.array (xs.map encode)).Legible number :=
  list fun x member => each x member fun d inside => all d (List.mem_flatMap_of_mem member inside)

theorem readable {j : Json} (legible : j.Legible number) : j.readable := by
  induction legible with
  | @array items each ih =>
    rw [Json.readable]
    clear each
    induction items with
    | nil => rfl
    | cons j js ihs =>
      obtain ⟨head, tail⟩ := List.forall_mem_cons.mp ih
      rw [allReadable, head, ihs tail, Bool.and_self]
  | @object fields each ih =>
    rw [Json.readable]
    clear each
    induction fields with
    | nil => rfl
    | cons f fs ihs =>
      obtain ⟨head, tail⟩ := List.forall_mem_cons.mp ih
      rw [fieldsReadable, head, ihs tail, Bool.and_self]
  | _ => rfl

end Legible

/-- The number form of the double is read as this double. -/
def ReadsBack (d : Double) : Prop := readNumber d.numberText.toList = some (double d, [])

theorem skipBlanks_append {blanks : List Char} (blank : ∀ c ∈ blanks, isGap c) (cs : List Char) :
    skipBlanks (blanks ++ cs) = skipBlanks cs :=
  List.dropWhile_append_of_pos blank

theorem skipBlanks_solid {c : Char} (solid : isGap c = false) (cs : List Char) :
    skipBlanks (c :: cs) = c :: cs :=
  Stops.dropWhile (p := isGap) (.cons solid cs)

theorem skipBlanks_skipBlanks (cs : List Char) : skipBlanks (skipBlanks cs) = skipBlanks cs := by
  induction cs with
  | nil => rfl
  | cons c cs ih =>
    cases gap : isGap c with
    | false => rw [skipBlanks_solid gap, skipBlanks_solid gap]
    | true =>
      have skip : skipBlanks (c :: cs) = skipBlanks cs := List.dropWhile_cons_of_pos gap
      rw [skip, ih]

theorem readValue_skipBlanks (fuel room : Nat) (cs : List Char) :
    readValue fuel room (skipBlanks cs) = readValue fuel room cs := by
  cases fuel with
  | zero => rfl
  | succ fuel => simp only [readValue, skipBlanks_skipBlanks]

theorem readItems_skipBlanks (fuel room : Nat) (cs : List Char) :
    readItems fuel room (skipBlanks cs) = readItems fuel room cs := by
  cases fuel with
  | zero => rfl
  | succ fuel => simp only [readItems, readValue_skipBlanks]

theorem readFields_skipBlanks (fuel room : Nat) (cs : List Char) :
    readFields fuel room (skipBlanks cs) = readFields fuel room cs := by
  cases fuel with
  | zero => rfl
  | succ fuel => simp only [readFields, skipBlanks_skipBlanks]

section Blanks

variable {blanks : List Char} (blank : ∀ c ∈ blanks, isGap c) (fuel room : Nat) (cs : List Char)

include blank

theorem readValue_blanks : readValue fuel room (blanks ++ cs) = readValue fuel room cs := by
  rw [← readValue_skipBlanks, skipBlanks_append blank, readValue_skipBlanks]

theorem readItems_blanks : readItems fuel room (blanks ++ cs) = readItems fuel room cs := by
  rw [← readItems_skipBlanks, skipBlanks_append blank, readItems_skipBlanks]

theorem readFields_blanks : readFields fuel room (blanks ++ cs) = readFields fuel room cs := by
  rw [← readFields_skipBlanks, skipBlanks_append blank, readFields_skipBlanks]

end Blanks

theorem readValue_number {fuel room : Nat} {cs left : List Char} {j : Json}
    (read : readNumber cs = some (j, left)) :
    readValue (fuel + 1) room cs = some (j, left) := by
  obtain ⟨c, ds, rfl, start⟩ := readNumber_head read
  have solid : isGap c = false := by
    cases gap : isGap c with
    | false => rfl
    | true =>
      simp only [isGap, Bool.or_eq_true, beq_iff_eq] at gap
      rcases gap with ((rfl | rfl) | rfl) | rfl <;> cases start
  have first {d : Char} {cs : List Char} (head : c :: ds = d :: cs) : startsNumber d :=
    (List.cons.inj head).1 ▸ start
  rw [readValue, skipBlanks_solid solid]
  split
  · next head => cases first head
  · next head => cases first head
  · next head => cases first head
  · next head => cases first head
  · next head => cases first head
  · next head => cases first head
  · exact read

theorem toList_quote (s : String) (rest : List Char) :
    (quote s).toList ++ rest = '"' :: (s.toList.flatMap escape ++ '"' :: rest) := by
  simp [quote]

theorem readValue_string {fuel room : Nat} (s : String) (rest : List Char) :
    readValue (fuel + 1) room ((quote s).toList ++ rest) = some (string s, rest) := by
  rw [toList_quote, readValue, skipBlanks_solid rfl]
  simp [readString_quoted]

theorem readItems_close (fuel room : Nat) (cs : List Char) : readItems fuel room (']' :: cs) = none := by
  cases fuel with
  | zero => rfl
  | succ fuel => cases fuel <;> rfl

theorem readFields_close (fuel room : Nat) (cs : List Char) :
    readFields fuel room ('\x7d' :: cs) = none := by
  cases fuel <;> rfl

theorem readValue_array {fuel room : Nat} {cs left : List Char} {js : List Json}
    (read : readItems fuel room cs = some (js, left)) :
    readValue (fuel + 1) (room + 1) ('[' :: cs) = some (array js, left) := by
  rw [← readItems_skipBlanks] at read
  rw [readValue, skipBlanks_solid rfl]
  simp only
  split
  · next head =>
    rw [head, readItems_close] at read
    cases read
  · simp [read, nested]

theorem ofFields_some (fs : List (String × Json)) :
    ofFields (fs.map fun f => (some f.1, f.2)) = object fs := by
  have keys : (fs.map fun f => (some f.1, f.2)).mapM (fun f => f.1.map (·, f.2)) = some fs := by
    induction fs with
    | nil => rfl
    | cons f fs ih => simp [ih]
  unfold ofFields
  split
  · next read => exact congrArg object (Option.some.inj (read.symm.trans keys))
  · next read => cases read.symm.trans keys

theorem readValue_object {fuel room : Nat} {cs left : List Char} {fs : List (String × Json)}
    (read : readFields fuel room cs = some (fs.map fun f => (some f.1, f.2), left)) :
    readValue (fuel + 1) (room + 1) ('\x7b' :: cs) = some (object fs, left) := by
  rw [← readFields_skipBlanks] at read
  rw [readValue, skipBlanks_solid rfl]
  simp only
  split
  · next head =>
    rw [head, readFields_close] at read
    cases read
  · simp [read, ofFields_some, nested]

theorem readItems_last {fuel room : Nat} {cs behind rest : List Char} {j : Json}
    (value : readValue fuel room cs = some (j, behind)) (close : skipBlanks behind = ']' :: rest) :
    readItems (fuel + 1) room cs = some ([j], rest) := by
  simp [readItems, value, close]

theorem readItems_more {fuel room : Nat} {cs behind more rest : List Char} {j : Json} {js : List Json}
    (value : readValue fuel room cs = some (j, behind)) (comma : skipBlanks behind = ',' :: more)
    (items : readItems fuel room more = some (js, rest)) :
    readItems (fuel + 1) room cs = some (j :: js, rest) := by
  simp [readItems, value, comma, items]

theorem readFields_last {fuel room : Nat} {cs behind rest : List Char} {j : Json} (k : String)
    (value : readValue fuel room cs = some (j, behind)) (close : skipBlanks behind = '\x7d' :: rest) :
    readFields (fuel + 1) room ((quote k).toList ++ ':' :: cs) = some ([(some k, j)], rest) := by
  simp [readFields, toList_quote, skipBlanks_solid, isGap, readString_quoted, expect, value, close]

theorem readFields_more {fuel room : Nat} {cs behind more rest : List Char} {j : Json} (k : String)
    {fs : List (Option String × Json)} (value : readValue fuel room cs = some (j, behind))
    (comma : skipBlanks behind = ',' :: more) (fields : readFields fuel room more = some (fs, rest)) :
    readFields (fuel + 1) room ((quote k).toList ++ ':' :: cs) = some ((some k, j) :: fs, rest) := by
  simp [readFields, toList_quote, skipBlanks_solid, isGap, readString_quoted, expect, value, comma, fields]

/-- In front of anything that ends a number, the text of the value is read as the value. -/
def Returned (l : Layout) (j : Json) : Prop :=
  ∀ (level fuel room : Nat) (rest : List Char), j.depth ≤ room → 2 * (j.spelled l level).length ≤ fuel →
    Stops extendsNumber rest → readValue fuel room (j.spelled l level ++ rest) = some (j, rest)

theorem ends_close {closing : List Char} (blank : ∀ c ∈ closing, isGap c) {c : Char}
    (close : extendsNumber c = false) (rest : List Char) : Stops extendsNumber (closing ++ c :: rest) := by
  cases closing with
  | nil => exact .cons close rest
  | cons d ds =>
    refine .cons ?_ _
    have gap := blank d List.mem_cons_self
    simp only [isGap, Bool.or_eq_true, beq_iff_eq] at gap
    rcases gap with ((rfl | rfl) | rfl) | rfl <;> rfl

theorem readItems_spelled (l : Layout) (level : Nat) {fuel room : Nat} {js : List Json} (some : js ≠ [])
    (each : ∀ j ∈ js, j.Returned l) (depth : depthOfItems js ≤ room)
    (enough : 2 * (spelledItems l level js).length < fuel) {closing : List Char}
    (blank : ∀ c ∈ closing, isGap c) (rest : List Char) :
    readItems fuel room (spelledItems l level js ++ (closing ++ ']' :: rest)) = .some (js, rest) := by
  have close : skipBlanks (closing ++ ']' :: rest) = ']' :: rest := by
    rw [skipBlanks_append blank, skipBlanks_solid rfl]
  induction js generalizing fuel with
  | nil => exact absurd rfl some
  | cons j js ih =>
    obtain ⟨head, tail⟩ := List.forall_mem_cons.mp each
    obtain ⟨fuel, rfl⟩ := Nat.exists_eq_add_one_of_ne_zero (Nat.ne_zero_of_lt enough)
    rw [depthOfItems] at depth
    cases js with
    | nil =>
      rw [spelledItems] at enough ⊢
      exact readItems_last (head level fuel room _ (by omega) (by omega) (ends_close blank rfl rest)) close
    | cons i is =>
      rw [spelledItems_more] at enough ⊢
      simp only [List.length_append, List.length_cons] at enough
      simp only [List.append_assoc, List.cons_append]
      have others := @ih fuel (List.cons_ne_nil i is) tail (by omega) (by omega)
      rw [← readItems_blanks (l.line_blank level)] at others
      exact readItems_more (head level fuel room _ (by omega) (by omega) (.cons rfl _))
        (skipBlanks_solid rfl _) others

theorem readFields_spelled (l : Layout) (level : Nat) {fuel room : Nat} {fs : List (String × Json)}
    (some : fs ≠ [])
    (each : ∀ f ∈ fs, f.2.Returned l) (depth : depthOfFields fs ≤ room)
    (enough : 2 * (spelledFields l level fs).length < fuel) {closing : List Char}
    (blank : ∀ c ∈ closing, isGap c) (rest : List Char) :
    readFields fuel room (spelledFields l level fs ++ (closing ++ '\x7d' :: rest)) =
      .some (fs.map fun f => (.some f.1, f.2), rest) := by
  have close : skipBlanks (closing ++ '\x7d' :: rest) = '\x7d' :: rest := by
    rw [skipBlanks_append blank, skipBlanks_solid rfl]
  induction fs generalizing fuel with
  | nil => exact absurd rfl some
  | cons f fs ih =>
    obtain ⟨head, tail⟩ := List.forall_mem_cons.mp each
    obtain ⟨fuel, rfl⟩ := Nat.exists_eq_add_one_of_ne_zero (Nat.ne_zero_of_lt enough)
    rw [depthOfFields] at depth
    cases fs with
    | nil =>
      rw [spelledFields_last] at enough ⊢
      simp only [List.length_append, List.length_cons] at enough
      simp only [List.append_assoc, List.cons_append]
      have value := head level fuel room (closing ++ '\x7d' :: rest) (by omega) (by omega)
        (ends_close blank rfl rest)
      rw [← readValue_blanks l.gap_blank] at value
      exact readFields_last f.1 value close
    | cons g gs =>
      rw [spelledFields_more] at enough ⊢
      simp only [List.length_append, List.length_cons] at enough
      simp only [List.append_assoc, List.cons_append]
      have others := @ih fuel (List.cons_ne_nil g gs) tail (by omega) (by omega)
      rw [← readFields_blanks (l.line_blank level)] at others
      have value := head level fuel room (',' :: (l.line level ++ (spelledFields l level (g :: gs) ++
        (closing ++ '\x7d' :: rest)))) (by omega) (by omega) (.cons rfl _)
      rw [← readValue_blanks l.gap_blank] at value
      exact readFields_more f.1 value (skipBlanks_solid rfl _) others

namespace Returned

variable {l : Layout} {j : Json}

theorem of_scalar {text : List Char} (same : ∀ level, j.spelled l level = text) (some : text ≠ [])
    (reads : ∀ fuel room rest, Stops extendsNumber rest →
      readValue (fuel + 1) room (text ++ rest) = .some (j, rest)) : j.Returned l := by
  intro level fuel room rest depth enough ends
  rw [same] at enough ⊢
  have positive := List.length_pos_iff.mpr some
  obtain ⟨fuel, rfl⟩ := Nat.exists_eq_add_one.mpr (show 0 < fuel by omega)
  exact reads fuel room rest ends

theorem of_number {text : List Char} (same : ∀ level, j.spelled l level = text)
    (read : readNumber text = some (j, [])) : j.Returned l := by
  refine of_scalar same ?_ fun fuel room rest ends => readValue_number (readNumber_append read ends)
  obtain ⟨c, cs, rfl, -⟩ := readNumber_head read
  exact List.cons_ne_nil c cs

theorem array {js : List Json} (each : ∀ j ∈ js, j.Returned l) : (array js).Returned l := by
  intro level fuel room rest depth enough ends
  rw [Json.depth] at depth
  obtain ⟨room, rfl⟩ := Nat.exists_eq_add_one.mpr (show 0 < room by omega)
  cases js with
  | nil =>
    rw [spelled] at enough ⊢
    have positive : 0 < fuel := Nat.lt_of_lt_of_le (by decide) enough
    obtain ⟨fuel, rfl⟩ := Nat.exists_eq_add_one.mpr positive
    rfl
  | cons j js =>
    rw [spelled_array] at enough ⊢
    simp only [List.length_append, List.length_cons] at enough
    obtain ⟨fuel, rfl⟩ := Nat.exists_eq_add_one.mpr (show 0 < fuel by omega)
    have items := @readItems_spelled l (level + 1) fuel room (j :: js) (List.cons_ne_nil j js) each
      (by omega) (by omega) (l.line level) (l.line_blank level) rest
    rw [← readItems_blanks (l.line_blank (level + 1))] at items
    simp only [List.append_assoc, List.cons_append, List.nil_append]
    exact readValue_array items

theorem object {fs : List (String × Json)} (each : ∀ f ∈ fs, f.2.Returned l) : (object fs).Returned l := by
  intro level fuel room rest depth enough ends
  rw [Json.depth] at depth
  obtain ⟨room, rfl⟩ := Nat.exists_eq_add_one.mpr (show 0 < room by omega)
  cases fs with
  | nil =>
    rw [spelled] at enough ⊢
    have positive : 0 < fuel := Nat.lt_of_lt_of_le (by decide) enough
    obtain ⟨fuel, rfl⟩ := Nat.exists_eq_add_one.mpr positive
    rfl
  | cons f fs =>
    rw [spelled_object] at enough ⊢
    simp only [List.length_append, List.length_cons] at enough
    obtain ⟨fuel, rfl⟩ := Nat.exists_eq_add_one.mpr (show 0 < fuel by omega)
    have fields := @readFields_spelled l (level + 1) fuel room (f :: fs) (List.cons_ne_nil f fs) each
      (by omega) (by omega) (l.line level) (l.line_blank level) rest
    rw [← readFields_blanks (l.line_blank (level + 1))] at fields
    simp only [List.append_assoc, List.cons_append, List.nil_append]
    exact readValue_object fields

end Returned

theorem returned (l : Layout) {j : Json} (legible : j.Legible fun d => d.isFinite ∧ ReadsBack d) :
    j.Returned l := by
  induction legible with
  | null => exact .of_scalar (fun _ => rfl) (by decide) fun _ _ _ _ => rfl
  | bool b => cases b <;> exact .of_scalar (fun _ => rfl) (by decide) fun _ _ _ _ => rfl
  | integer n => exact .of_number (fun _ => rfl) (readNumber_toString n)
  | @double d legible =>
    have same (level : Nat) : (double d).spelled l level = d.numberText.toList := by
      simp [spelled, compact, doubleText, legible.1]
    exact .of_number same legible.2
  | string s =>
    have same (level : Nat) : (string s).spelled l level = (quote s).toList := by simp [spelled, compact]
    exact .of_scalar same (by simp [quote]) fun _ _ rest _ => readValue_string s rest
  | array each ih => exact .array ih
  | object each ih => exact .object ih

theorem read_spelled (l : Layout) {j : Json} (legible : j.Legible fun d => d.isFinite ∧ ReadsBack d)
    (depth : j.depth ≤ maxNesting) {text : String} (spelled : text.toList = j.spelled l 0) :
    read text = some j := by
  have value := returned l legible 0 (readingFuel text.toList) maxNesting [] depth
    (by rw [readingFuel, spelled]; omega) (.nil _)
  rw [List.append_nil, ← spelled] at value
  simp only [read, value]
  rfl

theorem read_pretty {j : Json} (legible : j.Legible fun d => d.isFinite ∧ ReadsBack d)
    (depth : j.depth ≤ maxNesting) : read j.pretty = some j :=
  read_spelled .pretty legible depth (j.toList_prettyAt 0)

theorem read_compact {j : Json} (legible : j.Legible fun d => d.isFinite ∧ ReadsBack d)
    (depth : j.depth ≤ maxNesting) : read j.compact = some j :=
  read_spelled .compact legible depth (j.toList_compact 0)

end AccessControl.Json
