import BinFleet.Number.Literal
import BinFleet.Text.Blank
import BinFleet.Web.Handler

namespace BinFleet.Web

/-- A kind of document that a client accepts, and how much it likes it. -/
structure MediaRange where
  kind : String
  subkind : String
  quality : Float := 1.0
  parameters : List (String × String) := []

namespace MediaRange

def trimBlanks (cs : List Char) : String := String.ofList (Text.stripWhere (· == ' ') cs)

/-- The value of a parameter, empty when there is none; later ones win. -/
def parameter (m : MediaRange) (name : String) : String :=
  ((m.parameters.reverse.find? (·.1 == name)).map (·.2)).getD ""

/-- A quality that cannot be read is zero, and one that is too great has no limit. -/
def qualityOf (text : List Char) : Float :=
  let text := String.ofList text
  ((Number.readSingle text).toOption <|> (Number.readSaturating text).toOption).getD 0.0

def addParameter (m : MediaRange) (text : List Char) : MediaRange :=
  match Text.cut? '=' text with
  | none => m
  | some (name, value) =>
    if trimBlanks name = "q" then { m with quality := qualityOf value }
    else { m with parameters := m.parameters ++ [(trimBlanks name, trimBlanks value)] }

/-- One range of a list; a lone word other than `*` is none. -/
def read? (text : List Char) : Option MediaRange :=
  match Text.splitList ';' (Text.stripWhere (· == ' ') text) with
  | [] => none
  | range :: parameters =>
    let plain : Option MediaRange :=
      match Text.splitList '/' range with
      | [kind] => if trimBlanks kind = "*" then some { kind := "*", subkind := "*" } else none
      | [kind, subkind] => some { kind := trimBlanks kind, subkind := trimBlanks subkind }
      | _ => none
    plain.map fun m => parameters.foldl addParameter m

/-- Better liked, or else less general. -/
def precedes (a b : MediaRange) : Bool :=
  a.quality > b.quality || (a.kind != "*" && b.kind == "*") || (a.subkind != "*" && b.subkind == "*")

/-- Puts a range before those at the end of the list (last one first) that it precedes. -/
def insertBack (m : MediaRange) : List MediaRange → List MediaRange
  | [] => [m]
  | last :: before => if m.precedes last then last :: insertBack m before else m :: last :: before

/-- The ranges of a header, the best first. -/
def readAll (header : String) : List MediaRange :=
  (((Text.splitList ',' header.toList).filterMap read?).foldl (fun sorted m => insertBack m sorted) []).reverse

end MediaRange

namespace MetricsFormat

def binaryKind : String := "application/vnd.google.protobuf"

def binaryMessage : String := "io.prometheus.client.MetricFamily"

def plain : String := "text/plain; version=0.0.4; charset=utf-8"

/-- The format that a range stands for. -/
def ofRange? (m : MediaRange) : Option String :=
  let encoding := m.parameter "encoding"
  let version := m.parameter "version"
  if m.kind ++ "/" ++ m.subkind = binaryKind ∧ m.parameter "proto" = binaryMessage ∧
      encoding ∈ ["delimited", "text", "compact-text"] then
    some (binaryKind ++ "; proto=" ++ binaryMessage ++ "; encoding=" ++ encoding)
  else if m.kind = "text" ∧ m.subkind = "plain" ∧ (version = "0.0.4" ∨ version = "") then some plain
  else none

/-- The escaping of names that a range asks for, or the one before. -/
def escapingOf (m : MediaRange) (before : String) : String :=
  let asked := m.parameter "escaping"
  if asked ∈ ["allow-utf-8", "underscores", "dots", "values"] then asked else before

/-- The first range with a format decides; ranges before it may choose the escaping. -/
def choose (escaping : String) : List MediaRange → String
  | [] => plain ++ "; escaping=" ++ escaping
  | m :: rest =>
    let escaping := escapingOf m escaping
    match ofRange? m with
    | some format => format ++ "; escaping=" ++ escaping
    | none => choose escaping rest

def ofHeader (accept : String) : String := choose "underscores" (MediaRange.readAll accept)

end MetricsFormat

/-- A way to compress that a client knows, and how much it likes it. -/
structure Coding where
  name : String
  quality : Float

namespace Coding

def isSpace (c : Char) : Bool := c == ' ' || c == '\t' || c == '\r' || c == '\n'

def isNameChar (c : Char) : Bool :=
  0x20 < c.toNat && c.toNat < 0x7f && !"\"(),:;<=>?@[]\\\x7b\x7d".toList.contains c

/-- Zero or one, and digits after a point. -/
def quality? : List Char → Option (Float × List Char)
  | [] => none
  | c :: rest =>
    if c = '0' ∨ c = '1' then
      let whole : Float := if c = '1' then 1.0 else 0.0
      match rest with
      | '.' :: rest =>
        let digits := rest.takeWhile Char.isDigit
        let n := digits.foldl (fun n d => n * 10 + (d.toNat - '0'.toNat)) 0
        some (whole + Float.ofNat n / Float.ofNat (Nat.pow 10 digits.length), rest.dropWhile Char.isDigit)
      | rest => some (whole, rest)
    else none

/-- The quality behind a name, and what follows it. -/
def qualityAfter? (cs : List Char) : Option (Float × List Char) :=
  match cs with
  | ';' :: rest =>
    match rest.dropWhile isSpace with
    | 'q' :: '=' :: rest => quality? rest
    | _ => none
  | cs => some (1.0, cs)

/-- The codings of a list, up to the first place that is no such list. The fuel is the length of
the text. -/
def readWith : Nat → List Char → List Coding
  | 0, _ => []
  | fuel + 1, cs =>
    let name := cs.takeWhile isNameChar
    if name.isEmpty then []
    else
      match qualityAfter? ((cs.dropWhile isNameChar).dropWhile isSpace) with
      | none => []
      | some (quality, rest) =>
        ⟨String.ofList name, quality⟩ ::
          match rest.dropWhile isSpace with
          | ',' :: rest => readWith fuel (rest.dropWhile isSpace)
          | _ => []

def readAll (header : String) : List Coding := readWith (header.length + 1) header.toList

/-- The best of two ways: none at all, and gzip. A way that is not liked at all is not chosen. -/
def wantsGzip (accepted : List Coding) : Bool :=
  let best := ["identity", "gzip"].foldl
    (fun (best : String × Float) offer =>
      accepted.foldl
        (fun best c =>
          if c.quality > best.2 && (c.name == "*" || c.name == offer) then (offer, c.quality) else best)
        best)
    ("identity", -1.0)
  best.1 == "gzip" && best.2 != 0.0

end Coding

/-- The text of the metrics is written by their collector. -/
def metricsHandler {σ : Type} : Handler σ := fun v s =>
  let compressed := Coding.wantsGzip (Coding.readAll (v.request.header "Accept-Encoding"))
  (s, ⟨.header "Content-Type" (MetricsFormat.ofHeader (v.request.header "Accept")) ::
    (if compressed then [.header "Content-Encoding" "gzip"] else []) ++ [.status 200], .returned ()⟩)

end BinFleet.Web
