import BinFleet.Check
import BinFleet.Json.Value
import BinFleet.Web.Handler
import BinFleet.Web.Status

namespace BinFleet.Web

def jsonReply (status : Int) (fields : List (String × Json)) : List Write :=
  [.header "Content-Type" jsonType, .status status, .body ((Json.object fields).indented ++ "\n")]

/-- The answer to a request that failed. -/
def errorReply (status : Int) (message : String) : List Write :=
  jsonReply status [("error", .ofText message)]

/-- The answer to values that are not acceptable. -/
def checksReply (c : Checks) : List Write :=
  jsonReply 422 [("error", .object (c.sorted.map fun (k, m) => (Json.escape .web k, .ofText m)))]

def unencodable : String := "failed to encode json"

variable {σ : Type} [Journaled σ]

/-- Answers with a document; one that cannot be written is an error of the server. -/
def answer (context : LogContext) (status : Int)
    (document : Except Json.EncodeError (List (String × Json))) (s : σ) : σ × Reply :=
  match document with
  | .ok fields => (s, ⟨jsonReply status fields, .returned ()⟩)
  | .error _ =>
    (note (.error context "failed to write response" (some unencodable)) s,
      ⟨errorReply 500 unencodable, .returned ()⟩)

/-- Answers a fault and notes it under a complaint. -/
def answerFault (context : LogContext) (complaint : String) (f : Fault) (s : σ) : σ × Reply :=
  (note (.warn (f.contextOr context) complaint [("error", .text f.message)]) s,
    ⟨errorReply (statusOf f) f.message, .returned ()⟩)

end BinFleet.Web
