import AccessControl.Document.Policy
import AccessControl.DecisionPoint

namespace AccessControl.DocumentService

def subjectBag (name : String) : AttributeId := ⟨.subject, name, .string, .bag⟩

def role : AttributeId := subjectBag "role"

def tenantName : AttributeId := subjectBag "tenant_name"

def tenantType : AttributeId := subjectBag "tenant_type"

def assignedTenants : AttributeId := subjectBag "assigned_tenants"

def resourceType : AttributeId := ⟨.resource, "type_", .string, .single⟩

def owningTenant : AttributeId := ⟨.resource, "owning_tenant", .string, .single⟩

def confidential : AttributeId := ⟨.resource, "confidential", .boolean, .single⟩

def attributes : List AttributeId :=
  [role, tenantName, tenantType, assignedTenants, resourceType, owningTenant, confidential]

def text (s : String) : AttributeValue := .simple (.string s)

def texts (ss : List String) : AttributeValue := .bag (.ofList (ss.map .string))

def literal (s : String) : Expression := .literal (text s)

def deny (id : String) (condition : Option Expression) : Policy := .rule ⟨id, none, condition, .deny, []⟩

def auditLog : Obligation :=
  ⟨"audit-log", .permit, [⟨"subject", .ref .subjectId⟩, ⟨"resource", .ref .resourceId⟩]⟩

def viewDocuments : Policy :=
  .rule
    { id := "view-documents"
      target := some (.compare .eq (.ref .actionId) (literal "view"))
      condition := some (.compare .eq (.ref resourceType) (literal "document"))
      effect := .permit
      obligations := [auditLog] }

def helpdesk : Policy :=
  .set
    { id := "helpdesk"
      target :=
        some (.and [.compare .isIn (literal "helpdesk") (.ref role),
          .compare .isIn (literal "provider") (.ref tenantType)])
      algorithm := .denyOverrides
      obligations := [] }
    [deny "unassigned-tenant" (some (.not (.compare .isIn (.ref owningTenant) (.ref assignedTenants)))),
      deny "confidential" (some (.ref confidential)), viewDocuments]

def policy : Policy :=
  .set ⟨"edocs", none, .firstApplicable, []⟩ [helpdesk, deny "default-deny" none]

def document : PolicyDocument := ⟨attributes, policy⟩

def decisionPoint (options : Options) : Except PolicyError DecisionPoint := do
  DecisionPoint.load policy (← document.catalog) options

def helpdeskRequest (subject : String) (assigned : List String) (owner : String) (now : Instant) : Request :=
  (Request.new subject "view" "doc123" now).bindAll
    [(role, texts ["helpdesk"]), (tenantName, texts ["provider"]), (tenantType, texts ["provider"]),
      (assignedTenants, texts assigned), (resourceType, text "document"), (owningTenant, text owner),
      (confidential, .simple (.boolean false))]

end AccessControl.DocumentService
