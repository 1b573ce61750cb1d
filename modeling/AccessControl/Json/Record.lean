import AccessControl.Json.Basic

namespace AccessControl.Json

/-- The values of the named fields, in the order of the names. Unknown keys are skipped and a
repeated known key is refused. In an array fields may be missing at the end only. -/
def record (names : List String) : Json → Option (List (Option Json))
  | object fields =>
    if names.all fun n => (fields.filter fun f => f.1 == n).length ≤ 1 then
      some (names.map fun n => fields.lookup n)
    else none
  | array items =>
    if items.length ≤ names.length then
      some (items.map some ++ List.replicate (names.length - items.length) none)
    else none
  | _ => none

def variant : Json → Option (String × Json)
  | object [(tag, body)] => some (tag, body)
  | _ => none

/-- The name of a variant without data: a string, or a key with `null`. Behind a policy node's kind
an empty object stands for `null` too. -/
def plainVariant (inNode : Bool) : Json → Option String
  | string s => some s
  | object [(tag, null)] => some tag
  | object [(tag, object [])] => if inNode then some tag else none
  | _ => none

def orDefault (default : α) (decode : Json → Option α) : Option Json → Option α
  | none => some default
  | some j => decode j

def optional (decode : Json → Option α) : Option Json → Option (Option α)
  | none => some none
  | some null => some none
  | some j => (decode j).map some

def list (decode : Json → Option α) (j : Json) : Option (List α) :=
  j.array?.bind fun items => items.mapM decode

end AccessControl.Json
