import AccessControl.Audit
import AccessControl.CommandLine.Run
import AccessControl.Files.Volume
import AccessControl.Main
import AccessControl.Proofs.Extent.FirstApplicable
import AccessControl.Proofs.Extent.Lifting
import AccessControl.Proofs.Stability.Policy
import AccessControl.Proofs.Order.Policy
import AccessControl.Proofs.Obligations.Combine
import AccessControl.Proofs.Obligations.Provenance
import AccessControl.Proofs.Duality.Combine
import AccessControl.Proofs.Duality.Policy
import AccessControl.Proofs.References.Declared
import AccessControl.Proofs.Requests.Build
import AccessControl.Proofs.Calls.Discipline
import AccessControl.Proofs.Identity.Catalog
import AccessControl.Proofs.Identity.Congruence
import AccessControl.Proofs.Identity.Impersonation
import AccessControl.Proofs.Typing.Preservation
import AccessControl.Proofs.Flattening.Policy
import AccessControl.Proofs.Absence.Policy
import AccessControl.Proofs.Reach
import AccessControl.Proofs.Documents.Text
import AccessControl.Proofs.Glob.Effort
import AccessControl.Proofs.Reasons.Run
import AccessControl.Proofs.Inquiry.Influence
import AccessControl.Proofs.Requests.Document
import AccessControl.Proofs.Obligations.Fulfilment
import AccessControl.Proofs.Equality.Laws
import AccessControl.Proofs.Connectives.Presence
import AccessControl.Proofs.Connectives.Laws
import AccessControl.Proofs.Silence
import AccessControl.Proofs.Extent.Attained
import AccessControl.Proofs.Equality.Interchange
import AccessControl.Proofs.Equality.Comparison
import AccessControl.Proofs.Arithmetic
import AccessControl.Proofs.Catalog.Declarations
import AccessControl.Proofs.Inquiry.Thorough
import AccessControl.Proofs.Cost.Counters
import AccessControl.Proofs.Configuration.Loading
