import AccessControl.Configuration.Basic
import AccessControl.Document.Options
import AccessControl.Toml.Printer
import AccessControl.Toml.Basic

namespace AccessControl

/-- How typed values are taken out of a notation. -/
structure Reading (α : Type) where
  record : List String → α → Option (List (Option α))
  bool : α → Option Bool
  nat : α → Option Nat
  text : α → Option String

def Json.reading : Reading Json := ⟨Json.record, Json.bool?, Json.nat?, Json.string?⟩

def Toml.strict : Reading Toml := ⟨Toml.record?, Toml.bool?, Toml.nat?, Toml.string?⟩

def Toml.converting : Reading Toml := ⟨Toml.toRecord?, Toml.toBool?, Toml.toNat?, Toml.toText?⟩

namespace Reading

def part (r : Reading α) (names : List String) : Option α → Option (List (Option α))
  | none => some (names.map fun _ => none)
  | some a => r.record names a

/-- A missing field has the default, and a present one must be readable. -/
def field (read : α → Option β) (default : β) : Option α → Option β
  | none => some default
  | some a => read a

end Reading

namespace Configuration

def read (r : Reading α) (a : α) : Option Configuration := do
  let [pdp, policy, logging] ← r.record ["pdp", "policy", "logging"] a | none
  let [auditDecisions, maxDepth] ← r.part ["audit_decisions", "max_depth"] pdp | none
  let [path] ← r.part ["path"] policy | none
  let [level] ← r.part ["level"] logging | none
  some
    { options :=
        ⟨← Reading.field r.bool default.options.auditDecisions auditDecisions,
          ← Reading.field r.nat default.options.maxDepth maxDepth⟩
      policyPath := ← Reading.field r.text default.policyPath path
      logLevel := ← Reading.field r.text default.logLevel level }

def encode (c : Configuration) : Json :=
  .object
    [("pdp", c.options.encode), ("policy", .object [("path", .string c.policyPath)]),
      ("logging", .object [("level", .string c.logLevel)])]

def text (c : Configuration) : String :=
  "[pdp]\naudit_decisions = " ++ toString c.options.auditDecisions ++ "\nmax_depth = " ++
    toString c.options.maxDepth ++ "\n\n[policy]\npath = " ++ Toml.quote c.policyPath ++
    "\n\n[logging]\nlevel = " ++ Toml.quote c.logLevel ++ "\n"

end Configuration

end AccessControl
