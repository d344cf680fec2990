import BinFleet.Access.Token
import BinFleet.Archive.Statement
import BinFleet.Queue.Message
import BinFleet.View

namespace BinFleet.View

def message (m : Queue.Message) : Json :=
  .object [("content_type", text m.contentType), ("delivery_mode", .ofNat m.deliveryMode),
    ("correlation_id", text m.correlationId), ("message_id", text m.messageId),
    ("timestamp", instant m.timestamp), ("body", text m.body)]

def sqlValue : Archive.SqlValue → Json
  | .text s => text s
  | .number x => number x
  | .integer n => .ofInt n
  | .time t => instant t

def statement (s : Archive.Statement) : Json :=
  .object [("sql", text s.sql), ("args", .array (s.arguments.map sqlValue))]

def operator (o : Access.Operator) : Json := .object [("subject", text o.subject), ("role", text o.role)]

/-- A date of claims, left out when there is none. -/
def date (key : String) : Option Int → List (String × Json)
  | some s => [(key, instant (Time.Instant.ofTotalNanos (s * 1000000000) 0))]
  | none => []

def claims (c : Access.Claims) : Json :=
  .object ([("role", text c.role), ("subject", text c.subject), ("issuer", text c.issuer), ("id", text c.id),
    ("operator", operator ⟨c.subject, c.role⟩)] ++ date "expires_at" c.expiresAt ++ date "issued_at" c.issuedAt)

end BinFleet.View
