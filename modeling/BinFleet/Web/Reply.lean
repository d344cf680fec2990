import BinFleet.Ending
import BinFleet.Json.Text
import BinFleet.Json.Basic

namespace BinFleet.Web

/-- One act of writing. -/
inductive Write where
  | header (name value : String)
  | status (code : Int)
  | body (text : String)
  deriving DecidableEq, Repr

/-- All that is written for a request, and how the work on it ended. -/
structure Reply where
  writes : List Write := []
  ending : Ending Unit := .returned ()
  deriving DecidableEq, Repr

/-- Replaces or adds a header. -/
def setHeader (name value : String) (headers : List (String × String)) : List (String × String) :=
  if headers.any (·.1 == name) then headers.map fun h => if h.1 == name then (name, value) else h
  else headers ++ [(name, value)]

structure Response where
  status : Int := 200
  headers : List (String × String) := []
  body : String := ""
  deriving DecidableEq, Repr

/-- A response in the making; it is begun by the first status or the first text. -/
structure Draft where
  headers : List (String × String) := []
  begun : Option (Int × List (String × String)) := none
  body : String := ""
  deriving DecidableEq, Repr

namespace Draft

def commit (d : Draft) (code : Int) : Draft :=
  { d with begun := d.begun <|> some (code, d.headers) }

def write (d : Draft) : Write → Draft
  | .header name value => { d with headers := setHeader name value d.headers }
  | .status code => d.commit code
  | .body text =>
    let d := d.commit 200
    { d with body := d.body ++ text }

def response (d : Draft) : Response :=
  match d.begun with
  | some (status, headers) => ⟨status, headers, d.body⟩
  | none => ⟨200, d.headers, d.body⟩

end Draft

/-- What the client gets. -/
def Response.ofWrites (writes : List Write) : Response := (writes.foldl Draft.write {}).response

/-- The status that an observer of the writes remembers: the latest one, and 200 for a text before
any; zero when there was neither. -/
def rememberedStatus (writes : List Write) : Int :=
  writes.foldl
    (fun seen w =>
      match w with
      | .header .. => seen
      | .status code => code
      | .body _ => if seen = 0 then 200 else seen)
    0

/-- A status has three digits; writing any other first one crashes. -/
def Reply.checked (r : Reply) : Reply :=
  go [] r.writes
where
  go (before : List Write) : List Write → Reply
    | [] => r
    | .header name value :: rest => go (.header name value :: before) rest
    | .body _ :: _ => r
    | .status code :: _ =>
      if 100 ≤ code ∧ code ≤ 999 then r
      else ⟨before.reverse, .crashed ("invalid WriteHeader code " ++ toString code)⟩

def jsonType : String := "application/json"

/-- The short answer to a request that is turned away: one line of JSON. -/
def refusal (status : Int) (message : String) : List Write :=
  [.header "Content-Type" jsonType, .status status,
    .body (Json.object [("error", .ofText message)]).compact]

def reason (status : Int) : String :=
  match status with
  | 301 => "Moved Permanently"
  | 307 => "Temporary Redirect"
  | 400 => "Bad Request"
  | 404 => "Not Found"
  | 405 => "Method Not Allowed"
  | 500 => "Internal Server Error"
  | _ => ""

/-- The plain answer to a request that cannot be served. -/
def plainError (status : Int) (text : String) : List Write :=
  [.header "Content-Type" "text/plain; charset=utf-8", .header "X-Content-Type-Options" "nosniff",
    .status status, .body (text ++ "\n")]

def notFound : List Write := plainError 404 "404 page not found"

end BinFleet.Web
