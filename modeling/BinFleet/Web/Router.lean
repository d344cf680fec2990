import BinFleet.Web.Handler
import BinFleet.Web.Html

namespace BinFleet.Web

/-- A place in a route's pattern. A slash at the end of a path is the segment `/`. -/
inductive Segment where
  | literal (text : String)
  /-- Any one segment, which becomes a value. -/
  | any
  /-- The rest of the path, which is not empty. -/
  | rest
  deriving DecidableEq, Repr

structure Route (σ : Type) where
  /-- All methods when there is none. -/
  method : Option String
  pattern : List Segment
  /-- The handler for the values of a path, which are octets. -/
  handler : List (List UInt8) → Handler σ

namespace Router

/-- A path without empty and dotted segments; a slash at its end stays. -/
def cleanWith {α : Type} [DecidableEq α] (slash dot : α) (path : List α) : List α :=
  let pieces := Text.splitList slash path
  let kept := pieces.foldl
    (fun (stack : List (List α)) piece =>
      if piece = [] ∨ piece = [dot] then stack
      else if piece = [dot, dot] then stack.drop 1
      else piece :: stack)
    []
  let joined := slash :: [slash].intercalate kept.reverse
  if path.getLast? = some slash ∧ joined ≠ [slash] then joined ++ [slash] else joined

def clean (path : List Char) : List Char := cleanWith '/' '.' path

def cleanOctets (path : List UInt8) : List UInt8 := cleanWith 0x2f 0x2e path

/-- A clean path, encoded anew. -/
def encodedClean (path : List UInt8) : String :=
  String.ofList (Url.encodeWith Url.keptInPath (cleanOctets path))

/-- A segment with its percent signs resolved, or as it is when that cannot be done. -/
def unescaped (segment : List Char) : List UInt8 :=
  let raw := Text.Utf8.encode segment
  (Url.decode raw).toOption.getD raw

/-- The segments of a path that starts with a slash. -/
def segments (path : List Char) : List (List UInt8) :=
  let pieces := (Text.splitList '/' path).drop 1
  match pieces.getLast? with
  | some [] => (pieces.dropLast.map unescaped) ++ [[0x2f]]
  | _ => pieces.map unescaped

/-- The values of a path that a pattern matches. -/
def matches? : List Segment → List (List UInt8) → Option (List (List UInt8))
  | [], [] => some []
  | .literal t :: pattern, s :: path => if Text.Utf8.ofString t = s then matches? pattern path else none
  | .any :: pattern, s :: path => if s = [0x2f] then none else (matches? pattern path).map (s :: ·)
  | .rest :: _, _ :: _ => some []
  | _, _ => none

/-- A route and the values of the path it matched. -/
structure Match (σ : Type) where
  route : Route σ
  values : List (List UInt8)

def first? {σ : Type} (routes : List (Route σ)) (path : List (List UInt8)) : Option (Match σ) :=
  routes.findSome? fun r => (matches? r.pattern path).map fun values => ⟨r, values⟩

/-- The route for a method: its own, for HEAD also that of GET, and at last one for all methods. -/
def find? {σ : Type} (routes : List (Route σ)) (method : String) (path : List Char) : Option (Match σ) :=
  let path := segments path
  let ofMethod (m : Option String) := first? (routes.filter fun r => r.method == m) path
  ofMethod (some method) <|> (if method = "HEAD" then ofMethod (some "GET") else none) <|> ofMethod none

def endsInRest (pattern : List Segment) : Bool := pattern.getLast? == some .rest

/-- The path is all that the pattern spells out, up to the slash where the rest begins. -/
def isExact {σ : Type} (m : Match σ) (path : List Char) : Bool :=
  !endsInRest m.route.pattern ||
    (path.getLast? == some '/' && m.route.pattern.length == path.count '/')

/-- The methods of the routes that match a path, in ascending order. -/
def allowed {σ : Type} (routes : List (Route σ)) (path : List Char) : List String :=
  let matching (p : List Char) : List String :=
    (routes.filter fun r => (matches? r.pattern (segments p)).isSome).filterMap (·.method)
  let slashed := if path.getLast? == some '/' then [] else matching (path ++ ['/'])
  let found := matching path ++ slashed
  let found := if found.contains "GET" then "HEAD" :: found else found
  found.eraseDups.mergeSort fun a b => a ≤ b

/-- Octets beyond the letters of a header are written in hexadecimal. -/
def headerText (s : String) : String :=
  String.ofList ((Text.Utf8.ofString s).flatMap fun b =>
    if b < 0x80 then [Char.ofNat b.toNat] else '%' :: Text.Hex.digits 2 b.toNat)

/-- Sends the client elsewhere; only readers of a page get one. -/
def redirect (method : String) (status : Int) (location : String) : List Write :=
  .header "Location" (headerText location) ::
    (if method = "GET" ∨ method = "HEAD" then [.header "Content-Type" "text/html; charset=utf-8"] else []) ++
    .status status ::
    (if method = "GET" then
      [.body ("<a href=\"" ++ Html.escape location ++ "\">" ++ reason status ++ "</a>.\n\n")]
    else [])

/-- An encoded path under the same query. -/
def location (path query : String) : String := path ++ (if query = "" then "" else "?" ++ query)

/-- Serves a request by its route. -/
def serve {σ : Type} (routes : List (Route σ)) : Handler σ := fun v s =>
  let r := v.request
  let query := r.target.query
  let sent := r.target.encodedPath.toList
  let path := if r.method = "CONNECT" then sent else clean sent
  let found := find? routes r.method path
  let slashed := path ++ ['/']
  let wantsSlash := !(found.any fun m => isExact m path) && path.getLast? != some '/' &&
    (find? routes r.method slashed).any fun m => isExact m slashed
  if r.target.text = "*" then (s, ⟨[.header "Connection" "close", .status 400], .returned ()⟩)
  else if wantsSlash then
    (s, ⟨redirect r.method 307 (location (encodedClean r.path ++ "/") query), .returned ()⟩)
  else if path ≠ sent then
    (s, ⟨redirect r.method 307 (location (String.ofList path) query), .returned ()⟩)
  else
    match found with
    | some m => m.route.handler m.values v s
    | none =>
      match allowed routes path with
      | [] => (s, ⟨notFound, .returned ()⟩)
      | methods =>
        (s, ⟨.header "Allow" (", ".intercalate methods) :: plainError 405 (reason 405), .returned ()⟩)

end Router

end BinFleet.Web
