import AccessControl.Value.Bag

namespace AccessControl

structure Request where
  subject : String
  action : String
  resource : String
  timestamp : Instant
  bindings : List (AttributeId × AttributeValue)

namespace Request

def insert (a : AttributeId) (v : AttributeValue) :
    List (AttributeId × AttributeValue) → List (AttributeId × AttributeValue)
  | [] => [(a, v)]
  | (b, w) :: rest => if a = b then (a, v) :: rest else (b, w) :: insert a v rest

def new (subject action resource : String) (timestamp : Instant) : Request where
  subject := subject
  action := action
  resource := resource
  timestamp := timestamp
  bindings :=
    [(.subjectId, .simple (.string subject)), (.actionId, .simple (.string action)),
      (.resourceId, .simple (.string resource)), (.currentDateTime, .simple (.dateTime timestamp))]

def withTimestamp (r : Request) (timestamp : Instant) : Request where
  subject := r.subject
  action := r.action
  resource := r.resource
  timestamp := timestamp
  bindings := insert .currentDateTime (.simple (.dateTime timestamp)) r.bindings

/-- Bindings of built-in attributes are ignored. -/
def bind (r : Request) (a : AttributeId) (v : AttributeValue) : Request :=
  if a.isBuiltin then r else { r with bindings := insert a v r.bindings }

def bindAll (r : Request) (bindings : List (AttributeId × AttributeValue)) : Request :=
  bindings.foldl (fun r (a, v) => r.bind a v) r

def get? (r : Request) (a : AttributeId) : Option AttributeValue := r.bindings.lookup a

end Request

end AccessControl
