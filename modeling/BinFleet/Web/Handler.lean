import BinFleet.Access.Bearer
import BinFleet.Journal
import BinFleet.Text.Quoted
import BinFleet.Web.Reply
import BinFleet.Web.Request
import BinFleet.Web.RouteLabel

namespace BinFleet.Web

/-- States that keep a journal. -/
class Journaled (σ : Type) where
  journal : σ → Journal
  record : (Journal → Journal) → σ → σ

instance : Journaled Journal where
  journal j := j
  record f j := f j

def note {σ : Type} [Journaled σ] (e : LogEntry) (s : σ) : σ := Journaled.record (·.log e) s

def measure {σ : Type} [Journaled σ] (f : Metrics → Metrics) (s : σ) : σ := Journaled.record (·.measure f) s

abbrev Handler (σ : Type) := Visit → σ → σ × Reply

variable {σ : Type} [Journaled σ]

def crashMessage : String := "the server encountered a problem and could not process your request"

/-- A crash is logged and answered. -/
def recovering (next : Handler σ) : Handler σ := fun v s =>
  match next v s with
  | (s, ⟨writes, .crashed text⟩) =>
    let s := note (.error (v.log.withAction "http_panic") "panic while serving request" (some text)
      [("path", .text v.request.shownPath)]) s
    (s, ⟨writes ++ .header "Connection" "close" :: refusal 500 crashMessage, .returned ()⟩)
  | done => done

def requestIdHeader : String := "X-Request-Id"

/-- The caller's request id, or a fresh one when it has none or a very long one. -/
def requestIdOf (fresh : String) (r : Request) : String :=
  let given := r.header requestIdHeader
  if given = "" ∨ 64 < given.utf8ByteSize then fresh else given

def identified (fresh : String) (next : Handler σ) : Handler σ := fun v s =>
  let id := requestIdOf fresh v.request
  let (s, r) := next { v with log := v.log.withRequestId id } s
  (s, { r with writes := .header requestIdHeader id :: r.writes })

/-- Labels of the metrics are texts. -/
def labelMessage (label : List UInt8) : String :=
  "label value " ++ Text.Quoted.encodeOctets label ++ " is not valid UTF-8"

/-- Counts a reply by the status that was remembered. A path whose label is no text crashes the
count, and then nothing is counted. -/
def counted (service : String) (request : Request) (s : σ) (r : Reply) : σ × Reply :=
  let label := RouteLabel.ofPath request.path
  let seen := rememberedStatus r.writes
  match Text.Utf8.valid? label with
  | none => (s, { r with ending := .crashed (labelMessage label) })
  | some label =>
    (measure (·.inc (.httpRequests service request.method label (if seen = 0 then 200 else seen))) s, r)

/-- Counts requests, also those that are on their way; one that crashed is not counted. -/
def measured (service : String) (next : Handler σ) : Handler σ := fun v s =>
  if v.request.isFor "/metrics" then next v s
  else
    let s := measure (·.add (.httpInFlight service) 1) s
    let (s, r) := next v s
    let (s, r) :=
      match r.ending with
      | .crashed _ => (s, r)
      | .returned () => counted service v.request s r
    (measure (·.add (.httpInFlight service) (-1)) s, r)

/-- Logs the start of a request, and its end unless it crashed. -/
def logged (elapsed : String) (next : Handler σ) : Handler σ := fun v s =>
  let about : List (String × LogValue) := [("method", .text v.request.method), ("URL", .text v.request.shownPath)]
  let s := note (.debug v.log "started" (about ++ [("remote", .text v.request.remote)])) s
  let (s, r) := next v s
  match r.ending with
  | .crashed _ => (s, r)
  | .returned () =>
    (note (.debug v.log "completed"
      (about ++ [("status", .int (rememberedStatus r.writes)), ("duration", .text elapsed)])) s, r)

/-- Finds the operator that a token belongs to, which may be nobody. -/
abbrev Authority := LogContext → String → Except Fault (Option Access.Operator)

/-- Turns away bad tokens. Without a token, or without an authority, the visitor is anonymous. -/
def authenticated (authority : Option Authority) (next : Handler σ) : Handler σ := fun v s =>
  let header := v.request.header "Authorization"
  let refuse (context : LogContext) (why : String) : σ × Reply :=
    (note (.warn context "failed to authenticate operator" [("error", .text why)]) s,
      ⟨refusal 401 "invalid credentials", .returned ()⟩)
  match authority with
  | none => next { v with operator := some ⟨"", ""⟩ } s
  | some find =>
    if header = "" then next { v with operator := some ⟨"", ""⟩ } s
    else
      match Access.Bearer.token? header with
      | none => (s, ⟨refusal 401 Access.Bearer.malformed, .returned ()⟩)
      | some token =>
        match find v.log token with
        | .error f => refuse (f.contextOr v.log) f.message
        | .ok none => refuse v.log "<nil>"
        | .ok (some operator) =>
          next { v with log := v.log.withSubject operator.subject, operator := some operator } s

/-- Lets in operators with one of the roles; an empty list lets in all. -/
def requiringRoles (roles : List String) (next : Handler σ) : Handler σ := fun v s =>
  if v.isAnonymous then (s, ⟨refusal 401 "authorization required", .returned ()⟩)
  else if !roles.isEmpty && !v.operator.any fun o => roles.contains o.role then
    (s, ⟨refusal 403 "forbidden: insufficient role", .returned ()⟩)
  else next v s

end BinFleet.Web
