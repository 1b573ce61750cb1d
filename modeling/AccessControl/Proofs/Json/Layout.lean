import AccessControl.Json.Printer

namespace AccessControl.Json

@[elab_as_elim, induction_eliminator]
theorem induction {P : Json → Prop} (null : P null) (bool : ∀ b, P (bool b)) (integer : ∀ n, P (integer n))
    (double : ∀ d, P (double d)) (string : ∀ s, P (string s))
    (array : ∀ items, (∀ j ∈ items, P j) → P (array items))
    (object : ∀ fields, (∀ f ∈ fields, P f.2) → P (object fields)) (unreadable : P unreadable)
    (j : Json) : P j :=
  @Json.rec P (fun items => ∀ j ∈ items, P j) (fun fields => ∀ f ∈ fields, P f.2) (fun f => P f.2)
    null bool integer double string array object unreadable
    (fun _ member => absurd member List.not_mem_nil)
    (fun _ _ head tail => List.forall_mem_cons.mpr ⟨head, tail⟩)
    (fun _ member => absurd member List.not_mem_nil)
    (fun _ _ head tail => List.forall_mem_cons.mpr ⟨head, tail⟩)
    (fun _ _ value => value) j

def isGap (c : Char) : Bool := c == ' ' || c == '\t' || c == '\n' || c == '\r'

/-- The blanks before an item or a closing bracket, by the level of nesting, and those behind a
colon. -/
structure Layout where
  line : Nat → List Char
  gap : List Char
  line_blank : ∀ level, ∀ c ∈ line level, isGap c
  gap_blank : ∀ c ∈ gap, isGap c

namespace Layout

def compact : Layout where
  line _ := []
  gap := []
  line_blank _ _ member := nomatch member
  gap_blank _ member := nomatch member

def pretty : Layout where
  line level := '\n' :: List.replicate (2 * level) ' '
  gap := [' ']
  line_blank level := by simp [isGap]
  gap_blank := by simp [isGap]

end Layout

mutual

def spelled (l : Layout) (level : Nat) : Json → List Char
  | array [] => ['[', ']']
  | array (j :: js) =>
    '[' :: l.line (level + 1) ++ spelledItems l (level + 1) (j :: js) ++ l.line level ++ [']']
  | object [] => ['\x7b', '\x7d']
  | object (f :: fs) =>
    '\x7b' :: l.line (level + 1) ++ spelledFields l (level + 1) (f :: fs) ++ l.line level ++ ['\x7d']
  | j => j.compact.toList

def spelledItems (l : Layout) (level : Nat) : List Json → List Char
  | [] => []
  | [j] => j.spelled l level
  | j :: js => j.spelled l level ++ ',' :: l.line level ++ spelledItems l level js

def spelledFields (l : Layout) (level : Nat) : List (String × Json) → List Char
  | [] => []
  | [(k, j)] => (quote k).toList ++ ':' :: l.gap ++ j.spelled l level
  | (k, j) :: fs =>
    (quote k).toList ++ ':' :: l.gap ++ j.spelled l level ++ ',' :: l.line level ++ spelledFields l level fs

end

theorem spelled_array (l : Layout) (level : Nat) (j : Json) (js : List Json) :
    (array (j :: js)).spelled l level =
      '[' :: (l.line (level + 1) ++ (spelledItems l (level + 1) (j :: js) ++ (l.line level ++ [']']))) := by
  simp [spelled]

theorem spelled_object (l : Layout) (level : Nat) (f : String × Json) (fs : List (String × Json)) :
    (object (f :: fs)).spelled l level = '\x7b' :: (l.line (level + 1) ++
      (spelledFields l (level + 1) (f :: fs) ++ (l.line level ++ ['\x7d']))) := by
  simp [spelled]

theorem spelledItems_more (l : Layout) (level : Nat) (j i : Json) (is : List Json) :
    spelledItems l level (j :: i :: is) =
      j.spelled l level ++ (',' :: (l.line level ++ spelledItems l level (i :: is))) := by
  simp [spelledItems]

theorem spelledFields_last (l : Layout) (level : Nat) (f : String × Json) :
    spelledFields l level [f] = (quote f.1).toList ++ (':' :: (l.gap ++ f.2.spelled l level)) := by
  simp [spelledFields]

theorem spelledFields_more (l : Layout) (level : Nat) (f g : String × Json) (gs : List (String × Json)) :
    spelledFields l level (f :: g :: gs) = (quote f.1).toList ++ (':' :: (l.gap ++ (f.2.spelled l level ++
      (',' :: (l.line level ++ spelledFields l level (g :: gs)))))) := by
  simp [spelledFields]

theorem toList_indent (level : Nat) : (indent level).toList = Layout.pretty.line level := by
  simp [indent, Layout.pretty]

theorem toList_prettyItems {level : Nat} {js : List Json} (some : js ≠ [])
    (each : ∀ j ∈ js, (j.prettyAt level).toList = j.spelled .pretty level) :
    (prettyItems level js).toList = Layout.pretty.line level ++ spelledItems .pretty level js := by
  induction js with
  | nil => exact absurd rfl some
  | cons j js ih =>
    obtain ⟨head, tail⟩ := List.forall_mem_cons.mp each
    cases js with
    | nil => simp [prettyItems, spelledItems, toList_indent, head]
    | cons i is => simp [prettyItems, spelledItems, toList_indent, head, ih (List.cons_ne_nil i is) tail]

theorem toList_prettyFields {level : Nat} {fs : List (String × Json)} (some : fs ≠ [])
    (each : ∀ f ∈ fs, (f.2.prettyAt level).toList = f.2.spelled .pretty level) :
    (prettyFields level fs).toList = Layout.pretty.line level ++ spelledFields .pretty level fs := by
  have gap : Layout.pretty.gap = [' '] := rfl
  induction fs with
  | nil => exact absurd rfl some
  | cons f fs ih =>
    obtain ⟨head, tail⟩ := List.forall_mem_cons.mp each
    cases fs with
    | nil => simp [prettyFields, spelledFields, toList_indent, gap, head]
    | cons g gs =>
      simp [prettyFields, spelledFields, toList_indent, gap, head, ih (List.cons_ne_nil g gs) tail]

theorem toList_prettyAt (j : Json) (level : Nat) : (j.prettyAt level).toList = j.spelled .pretty level := by
  induction j generalizing level with
  | array items each =>
    cases items with
    | nil => simp [prettyAt, spelled]
    | cons j js =>
      have inside := toList_prettyItems (List.cons_ne_nil j js) fun i member => each i member (level + 1)
      simp [prettyAt, spelled, inside, toList_indent]
  | object fields each =>
    cases fields with
    | nil => simp [prettyAt, spelled]
    | cons f fs =>
      have inside := toList_prettyFields (List.cons_ne_nil f fs) fun g member => each g member (level + 1)
      simp [prettyAt, spelled, inside, toList_indent]
  | _ => simp [prettyAt, spelled]

theorem toList_compactItems {js : List Json} (level : Nat)
    (each : ∀ j ∈ js, j.compact.toList = j.spelled .compact level) :
    (compactItems js).toList = spelledItems .compact level js := by
  have line : Layout.compact.line level = [] := rfl
  induction js with
  | nil => simp [compactItems, spelledItems]
  | cons j js ih =>
    obtain ⟨head, tail⟩ := List.forall_mem_cons.mp each
    cases js with
    | nil => simp [compactItems, spelledItems, head]
    | cons i is => simp [compactItems, spelledItems, line, head, ih tail]

theorem toList_compactFields {fs : List (String × Json)} (level : Nat)
    (each : ∀ f ∈ fs, f.2.compact.toList = f.2.spelled .compact level) :
    (compactFields fs).toList = spelledFields .compact level fs := by
  have line : Layout.compact.line level = [] := rfl
  have gap : Layout.compact.gap = [] := rfl
  induction fs with
  | nil => simp [compactFields, spelledFields]
  | cons f fs ih =>
    obtain ⟨head, tail⟩ := List.forall_mem_cons.mp each
    cases fs with
    | nil => simp [compactFields, spelledFields, gap, head]
    | cons g gs => simp [compactFields, spelledFields, line, gap, head, ih tail]

theorem toList_compact (j : Json) (level : Nat) : j.compact.toList = j.spelled .compact level := by
  have line (level : Nat) : Layout.compact.line level = [] := rfl
  induction j generalizing level with
  | array items each =>
    have inside := toList_compactItems (level + 1) fun j member => each j member (level + 1)
    cases items with
    | nil => simp [compact, compactItems, spelled]
    | cons j js => simp [compact, spelled, inside, line]
  | object fields each =>
    have inside := toList_compactFields (level + 1) fun f member => each f member (level + 1)
    cases fields with
    | nil => simp [compact, compactFields, spelled]
    | cons f fs => simp [compact, spelled, inside, line]
  | _ => simp [spelled]

end AccessControl.Json
