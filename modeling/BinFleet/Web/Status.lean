import BinFleet.Digest.Sha256
import BinFleet.Fault

namespace BinFleet.Web

/-- The code that answers a fault. It depends on the causes alone; the first that is found in the
order below decides. -/
def statusOf (f : Fault) : Nat :=
  if f.has .invalidPayload then 422
  else if f.has .deviceNotFound || f.has .noReadings || f.has .notFound then 404
  else if f.has .invalidToken || f.has .expiredToken then 401
  else if f.has .publishFailed then 502
  else 500

/-- A strong tag of a document. -/
def entityTag (document : List UInt8) : String :=
  "\"" ++ String.ofList ((Digest.Sha256.hex document).toList.take 32) ++ "\""

end BinFleet.Web
