import BinFleet.Digest.Hmac
import BinFleet.Fault
import BinFleet.Json.Reader
import BinFleet.Json.Value
import BinFleet.Text.Base64
import BinFleet.Text.Blank
import BinFleet.Uuid

namespace BinFleet.Access

/-- The authenticated caller; without a subject the caller is anonymous. -/
structure Operator where
  subject : String := ""
  role : String := ""
  deriving DecidableEq, Repr, Inhabited

namespace Operator

def isAnonymous (o : Operator) : Bool := o.subject == ""

end Operator

def operatorRole : String := "OPERATOR"

/-- Instants in claims are whole seconds since 1970-01-01. -/
structure Claims where
  role : String := ""
  issuer : String := ""
  subject : String := ""
  id : String := ""
  expiresAt : Option Int := none
  notBefore : Option Int := none
  issuedAt : Option Int := none
  deriving DecidableEq, Repr, Inhabited

namespace Claims

def issuerName : String := "smartrash"

/-- A number of seconds as claims count them: cut to nanoseconds, then down to a second. A
number that does not fit in 64 bits counts as the least one. -/
def secondsOfFloat (x : Float) : Int :=
  let whole := (Number.Double.ofFloat x).trunc
  let nanos := ((Number.Double.ofFloat ((x - whole.toFloat) * 1e9)).toInt?).getD 0
  match whole.toInt? with
  | some n =>
    if -(Int.pow 2 63) ≤ n ∧ n < Int.pow 2 63 then Time.Instant.counted (if nanos < 0 then n - 1 else n)
    else Time.Instant.counted (-(Int.pow 2 63))
  | none => Time.Instant.counted (-(Int.pow 2 63))

/-- A date claim: a JSON number, or a string with one. -/
def toDate : Json → Except Json.DecodeError (Option Int)
  | .null => .ok none
  | .number text =>
    match Number.read text with
    | .ok x => .ok (some (secondsOfFloat x))
    | .error _ => .error .wrongType
  | .string body =>
    let text := Json.unescape body
    match Json.readFirst text.toList with
    | .value (.number digits) [] =>
      if digits = text then
        match Number.read text with
        | .ok x => .ok (some (secondsOfFloat x))
        | .error _ => .error .wrongType
      else .error .wrongType
    | _ => .error .wrongType
  | _ => .error .wrongType

def isString : Json → Bool
  | .string _ => true
  | _ => false

/-- Audiences are one string or a list of strings; they are not used. -/
def audienceOk : Json → Bool
  | .null => true
  | .string _ => true
  | .array items => items.all isString
  | _ => false

def setField (c : Claims) (key : String) (v : Json) : Except Json.DecodeError Claims :=
  let is := Text.sameName key
  if is "role" then v.toText c.role |>.map fun x => { c with role := x }
  else if is "iss" then v.toText c.issuer |>.map fun x => { c with issuer := x }
  else if is "sub" then v.toText c.subject |>.map fun x => { c with subject := x }
  else if is "jti" then v.toText c.id |>.map fun x => { c with id := x }
  else if is "exp" then (toDate v).map fun x => { c with expiresAt := x }
  else if is "nbf" then (toDate v).map fun x => { c with notBefore := x }
  else if is "iat" then (toDate v).map fun x => { c with issuedAt := x }
  else if is "aud" then if audienceOk v then .ok c else .error .wrongType
  else .ok c

def dateField (key : String) (date : Option Int) : List (String × Json) :=
  match date with
  | some n => [(key, .ofInt n)]
  | none => []

def textField (key value : String) : List (String × Json) :=
  if value = "" then [] else [(key, .ofText value)]

def toJson (c : Claims) : Json :=
  .object ([("role", .ofText c.role)] ++ textField "iss" c.issuer ++ textField "sub" c.subject ++
    dateField "exp" c.expiresAt ++ dateField "nbf" c.notBefore ++ dateField "iat" c.issuedAt ++
    textField "jti" c.id)

/-- An expiry lies after the present. -/
def unexpired (c : Claims) (now : Time.Instant) : Bool :=
  c.expiresAt.all fun e => now.totalNanos < e * 1000000000

def begun (c : Claims) (now : Time.Instant) : Bool :=
  c.notBefore.all fun b => b * 1000000000 ≤ now.totalNanos

end Claims

inductive TokenError where
  | invalid
  | expired
  | missingSubject
  deriving DecidableEq, Repr

namespace TokenError

def toFault : TokenError → Fault
  | invalid => .known .invalidToken
  | expired => .known .expiredToken
  | missingSubject => .wrapped "" (.known .invalidToken) ": missing subject"

end TokenError

namespace Token

/-- The only algorithm that tokens are signed with. -/
def algorithm : String := "HS256"

def segment (bytes : List UInt8) : List Char := Text.Base64.encode .url bytes

def encodeJson (j : Json) : List Char := segment (Text.Utf8.encode j.render)

def header : Json := .object [("alg", .ofText algorithm), ("typ", .ofText "JWT")]

/-- The signature of header and claims. -/
def signature (secret : String) (signed : List Char) : List UInt8 :=
  Digest.Hmac.sum (Text.Utf8.ofString secret) (Text.Utf8.encode signed)

/-- Three base64url parts between dots: header, claims, and the signature of the first two parts. -/
def render (secret : String) (c : Claims) : String :=
  let signed := encodeJson header ++ '.' :: encodeJson c.toJson
  String.ofList (signed ++ '.' :: segment (signature secret signed))

def decodeJson? (part : List Char) : Option Json := do
  Json.read? (Text.Utf8.decode (← Text.Base64.decode? .url part))

/-- The algorithm that a header names; later keys win. -/
def algorithm? : Json → Option String
  | .object fields =>
    match fields.reverse.find? fun (k, _) => Json.unescape k == "alg" with
    | some (_, v) => v.text?
    | none => none
  | _ => none

/-- Claims of a token whose form and signature are right. -/
def verified? (secret token : String) : Option Claims :=
  match Text.splitList '.' token.toList with
  | [head, body, sign] => do
    let alg ← algorithm? (← decodeJson? head)
    let claims ← ((← decodeJson? body).overFields Claims.setField {}).toOption
    let given ← Text.Base64.decode? .url sign
    if alg = algorithm ∧ given = signature secret (head ++ '.' :: body) then some claims else none
  | _ => none

/-- The claims of a token at an instant. Among the claims an expiry is looked at first. -/
def check (secret : String) (now : Time.Instant) (token : String) : Except TokenError Claims :=
  match verified? secret token with
  | none => .error .invalid
  | some c =>
    if !c.unexpired now then .error .expired
    else if !c.begun now || c.issuer != Claims.issuerName then .error .invalid
    else if c.subject = "" then .error .missingSubject
    else .ok c

end Token

/-- Issues and checks tokens with one secret. -/
structure TokenService where
  secret : String
  lifetime : Time.Span
  deriving DecidableEq, Repr

namespace TokenService

/-- A new token and when it expires. The token id is made from random octets. -/
def issue (s : TokenService) (now : Time.Instant) (random : List UInt8) (context : LogContext)
    (subject role : String) : Except Fault (String × Time.Instant) :=
  let context := (context.withSubject subject).withAction "issue_token"
  if subject = "" then .error (.tagged context (.other "subject is empty"))
  else
    match Uuid.ofRandom random with
    | .error e =>
      .error (.tagged context (.wrapped "failed to generate token id: " (.other e.message) ""))
    | .ok id =>
      let issued := now.toUtc
      let expires := issued.add s.lifetime
      .ok (Token.render s.secret
        { role := role, issuer := Claims.issuerName, subject := subject, id := id.render
          expiresAt := some expires.seconds, issuedAt := some issued.seconds }, expires)

def validate (s : TokenService) (now : Time.Instant) (context : LogContext) (token : String) :
    Except Fault Claims :=
  (Token.check s.secret now token).mapError fun e =>
    .tagged (context.withAction "validate_token") e.toFault

/-- Who a token belongs to. -/
def operator (s : TokenService) (now : Time.Instant) (context : LogContext) (token : String) :
    Except Fault Operator :=
  (s.validate now context token).map fun c => ⟨c.subject, c.role⟩

end TokenService

end BinFleet.Access
