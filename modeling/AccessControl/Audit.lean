import AccessControl.DecisionPoint

namespace AccessControl

inductive AuditEvent where
  | decided (request : Request) (response : Response)
  | bindingIgnored (a : AttributeId)

namespace AuditEvent

def requestFields (r : Request) : String :=
  " subject=" ++ r.subject ++ " action=" ++ r.action ++ " resource=" ++ r.resource

def line : AuditEvent → String
  | decided r response =>
    let obligations := " obligations=" ++ toString response.obligations.length
    match response.decision with
    | .permit => "INFO Access permitted" ++ requestFields r ++ obligations
    | .deny => "WARN Access denied" ++ requestFields r ++ obligations
    | .notApplicable => "INFO No applicable policy" ++ requestFields r
    | .indeterminate x reason =>
      "WARN Access decision indeterminate" ++ requestFields r ++ " extent=" ++ x.text ++
        " reason=" ++ reason.message
  | bindingIgnored a => "WARN ignoring binding for built-in attribute attribute=" ++ a.text

def ofBindings (bindings : List (AttributeId × AttributeValue)) : List AuditEvent :=
  (bindings.filter fun b => b.1.isBuiltin).map fun b => bindingIgnored b.1

def ofResponse (options : Options) (r : Request) (response : Response) : List AuditEvent :=
  if options.auditDecisions then [decided r response] else []

end AuditEvent

end AccessControl
