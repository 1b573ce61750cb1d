namespace AccessControl

inductive Effect where
  | permit
  | deny
deriving DecidableEq

namespace Effect

def all : List Effect := [permit, deny]

def name : Effect → String
  | permit => "permit"
  | deny => "deny"

def ofName? (s : String) : Option Effect := all.find? fun e => e.name == s

def opposite : Effect → Effect
  | permit => deny
  | deny => permit

end Effect

inductive Extent where
  | permit
  | deny
  | permitOrDeny
deriving DecidableEq

namespace Extent

def all : List Extent := [permit, deny, permitOrDeny]

def name : Extent → String
  | permit => "permit"
  | deny => "deny"
  | permitOrDeny => "permit_or_deny"

def text : Extent → String
  | permit => "Permit"
  | deny => "Deny"
  | permitOrDeny => "PermitOrDeny"

def ofName? (s : String) : Option Extent := all.find? fun e => e.name == s

def ofEffect : Effect → Extent
  | .permit => permit
  | .deny => deny

def union (a b : Extent) : Extent := if a = b then a else permitOrDeny

def unionAll : List Extent → Option Extent
  | [] => none
  | e :: es => some (es.foldl union e)

end Extent

end AccessControl
