import AccessControl.DecisionPoint
import AccessControl.Json.Record

namespace AccessControl.Options

def encode (o : Options) : Json :=
  .object [("audit_decisions", .bool o.auditDecisions), ("max_depth", .integer o.maxDepth)]

def decode (j : Json) : Option Options := do
  let [auditDecisions, maxDepth] ← j.record ["audit_decisions", "max_depth"] | none
  some ⟨← Json.orDefault default.auditDecisions Json.bool? auditDecisions,
    ← Json.orDefault default.maxDepth Json.nat? maxDepth⟩

end AccessControl.Options
