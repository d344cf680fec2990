import BinFleet.Web.JsonReply

namespace BinFleet.Web

/-- A dependency and, when it is not well, the reason. -/
structure HealthCheck where
  name : String
  complaint : Option String
  deriving DecidableEq, Repr

variable {σ : Type} [Journaled σ]

def healthHandler (service : String) (checks : List HealthCheck) : Handler σ := fun v s =>
  let context := v.log.withAction "health_check"
  let checks := checks.mergeSort fun a b => a.name ≤ b.name
  let s := checks.foldl
    (fun s c =>
      match c.complaint with
      | none => s
      | some why => note (.warn context "dependency unhealthy"
          [("dependency", .text c.name), ("error", .text why)]) s)
    s
  let well := checks.all (·.complaint.isNone)
  let dependencies := checks.map fun c => (Json.escape .web c.name, Json.ofText (c.complaint.getD "ok"))
  (s, ⟨jsonReply (if well then 200 else 503)
    [("dependencies", .object dependencies), ("status", .ofText (if well then "available" else "degraded")),
      ("system_info", .object [("service-name", .ofText service)])], .returned ()⟩)

end BinFleet.Web
