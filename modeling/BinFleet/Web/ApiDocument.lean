import BinFleet.Json.Text
import BinFleet.Text.Blank

namespace BinFleet.Web

structure ApiParameter where
  /-- The type of a value, none for a request body. -/
  type : Option String
  description : String
  name : String
  place : String
  required : Bool := false

structure ApiResponse where
  status : Nat
  description : String
  /-- The type of the answer, when it has one. -/
  type : Option String := some "object"

structure ApiOperation where
  method : String
  isProtected : Bool := false
  description : String
  consumes : List String := []
  produces : List String := ["application/json"]
  tag : String
  summary : String
  parameters : List ApiParameter := []
  responses : List ApiResponse

structure ApiPath where
  path : String
  operations : List ApiOperation

structure ApiDocument where
  title : String
  description : String
  host : String
  paths : List ApiPath
  /-- The description of the token, for services that have protected paths. -/
  tokenNote : Option String := none

namespace ApiDocument

def quoted (s : String) : String := "\"" ++ Json.escape .plain s ++ "\""

/-- An object on one line. -/
def inline (fields : List (String × String)) : String :=
  "\x7b" ++ Text.joinWith ", " (fields.map fun (k, v) => quoted k ++ ": " ++ v) ++ "\x7d"

def inlineList (items : List String) : String := "[" ++ Text.joinWith ", " items ++ "]"

def indentation (level : Nat) : String := String.ofList (List.replicate (4 * level) ' ')

/-- Items one a line between an opening and a closing mark. -/
def lines (level : Nat) (opening closing : String) (items : List String) : String :=
  opening ++ "\n" ++ Text.joinWith ",\n" (items.map fun i => indentation (level + 1) ++ i) ++ "\n" ++
    indentation level ++ closing

/-- An object with one field a line. -/
def block (level : Nat) (fields : List (String × String)) : String :=
  lines level "\x7b" "\x7d" (fields.map fun (k, v) => quoted k ++ ": " ++ v)

def typeSchema (type : String) : String × String := ("schema", inline [("type", quoted type)])

def parameter (p : ApiParameter) : String :=
  let required := if p.required then [("required", "true")] else []
  match p.type with
  | some type =>
    inline ([("type", quoted type), ("description", quoted p.description), ("name", quoted p.name),
      ("in", quoted p.place)] ++ required)
  | none =>
    inline ([("description", quoted p.description), ("name", quoted p.name),
      ("in", quoted p.place)] ++ required ++ [typeSchema "object"])

def response (r : ApiResponse) : String × String :=
  (toString r.status, inline ([("description", quoted r.description)] ++ r.type.toList.map typeSchema))

def listField (key : String) (values : List String) : List (String × String) :=
  if values.isEmpty then [] else [(key, inlineList (values.map quoted))]

def operation (level : Nat) (o : ApiOperation) : String :=
  let security :=
    if o.isProtected then [("security", inlineList [inline [("BearerAuth", "[]")]])] else []
  let parameters :=
    if o.parameters.isEmpty then []
    else [("parameters", lines (level + 1) "[" "]" (o.parameters.map parameter))]
  block level (security ++ [("description", quoted o.description)] ++
    listField "consumes" o.consumes ++ listField "produces" o.produces ++ listField "tags" [o.tag] ++
    [("summary", quoted o.summary)] ++ parameters ++
    [("responses", block (level + 1) (o.responses.map response))])

def path (p : ApiPath) : String × String :=
  (p.path, block 2 (p.operations.map fun o => (o.method, operation 3 o)))

def render (d : ApiDocument) : String :=
  let security :=
    match d.tokenNote with
    | some note =>
      [("securityDefinitions", block 1 [("BearerAuth", block 2 [("description", quoted note),
        ("type", quoted "apiKey"), ("name", quoted "Authorization"), ("in", quoted "header")])])]
    | none => []
  block 0 ([("schemes", "[]"), ("swagger", quoted "2.0"),
    ("info", block 1 [("description", quoted d.description), ("title", quoted d.title),
      ("contact", "\x7b\x7d"), ("version", quoted "1.0")]),
    ("host", quoted d.host), ("basePath", quoted "/"),
    ("paths", block 1 (d.paths.map path))] ++ security)

def ok : ApiResponse := ⟨200, "OK", some "object"⟩
def notFound : ApiResponse := ⟨404, "Not Found", some "object"⟩
def unprocessable : ApiResponse := ⟨422, "Unprocessable Entity", some "object"⟩
def unauthorized : ApiResponse := ⟨401, "Unauthorized", some "object"⟩

def deviceParameter : ApiParameter :=
  { type := some "string", description := "Device ID", name := "device_id", place := "path"
    required := true }

def health : ApiPath :=
  ⟨"/health",
    [{ method := "get", description := "Returns the health status of the service and its dependencies"
       tag := "Health", summary := "Health Check"
       responses := [ok, ⟨503, "Service Unavailable", some "object"⟩] }]⟩

def map : ApiDocument where
  title := "Map Service API"
  description := "Map service turns smart bin telemetry into color-coded map markers. Serves the live map, a WebSocket marker stream and a read API."
  host := "localhost:3000"
  tokenNote := some "Type \"Bearer\" followed by a space and JWT token."
  paths :=
    [health,
      ⟨"/api/markers",
        [{ method := "get", description := "One marker per device, ordered by device id"
           tag := "markers", summary := "Current markers", responses := [ok] }]⟩,
      ⟨"/api/markers/nearby",
        [{ method := "get"
           description := "Markers within radius meters of lat,lng, closest first. Used to plan a pickup route."
           tag := "markers", summary := "Markers near a point"
           parameters :=
             [⟨some "number", "Latitude", "lat", "query", true⟩,
               ⟨some "number", "Longitude", "lng", "query", true⟩,
               ⟨some "number", "Radius in meters, 0 for any distance", "radius", "query", false⟩,
               ⟨some "integer", "Max markers (0..1000)", "limit", "query", false⟩]
           responses := [ok, unprocessable] }]⟩,
      ⟨"/api/stats",
        [{ method := "get"
           description := "Device count, mean, deviation and range of the fill percentage, bins at or below the alert threshold"
           tag := "markers", summary := "Fleet statistics", responses := [ok] }]⟩,
      ⟨"/api/devices/\x7bdevice_id\x7d",
        [{ method := "get"
           description := "Current marker of a device with its address when reverse geocoding is enabled"
           tag := "devices", summary := "Device details", parameters := [deviceParameter]
           responses := [ok, notFound] },
         { method := "delete", isProtected := true
           description := "Removes the marker and the history of a device and notifies the map clients"
           tag := "devices", summary := "Forget a device", parameters := [deviceParameter]
           responses := [ok, unauthorized, ⟨403, "Forbidden", some "object"⟩, notFound] }]⟩,
      ⟨"/api/devices/\x7bdevice_id\x7d/history",
        [{ method := "get", description := "Readings of a device in arrival order"
           tag := "devices", summary := "Device history", parameters := [deviceParameter]
           responses := [ok, notFound] }]⟩,
      ⟨"/api/devices/\x7bdevice_id\x7d/history.csv",
        [{ method := "get", description := "Readings of a device in arrival order as CSV"
           produces := ["text/csv"], tag := "devices", summary := "Device history export"
           parameters := [deviceParameter]
           responses := [⟨200, "OK", some "string"⟩, notFound] }]⟩,
      ⟨"/api/readings",
        [{ method := "post", isProtected := true
           description := "Injects one reading through the same pipeline as the broker"
           consumes := ["application/json"], tag := "readings", summary := "Inject a reading"
           parameters := [⟨none, "Reading", "request", "body", true⟩]
           responses :=
             [⟨201, "Created", some "object"⟩, ⟨400, "Bad Request", some "object"⟩, unauthorized,
               unprocessable] }]⟩,
      ⟨"/ws/markers",
        [{ method := "get"
           description := "WebSocket. First frame is a snapshot of all markers, then one frame per change."
           produces := [], tag := "markers", summary := "Live marker stream"
           responses := [⟨101, "Switching Protocols", none⟩] }]⟩]

def archive : ApiDocument where
  title := "Archive Service API"
  description := "Archive service keeps the reading history of every bin in PostgreSQL."
  host := "localhost:3001"
  paths :=
    [health,
      ⟨"/archive/devices",
        [{ method := "get", description := "Latest archived state of every device"
           tag := "archive", summary := "Archived devices", responses := [ok] }]⟩,
      ⟨"/archive/devices/\x7bdevice_id\x7d/readings",
        [{ method := "get", description := "Latest readings of a device, oldest first"
           tag := "archive", summary := "Archived readings"
           parameters :=
             [deviceParameter,
               ⟨some "integer", "Max readings, 1 to 1000 (default 100)", "limit", "query", false⟩]
           responses := [ok, notFound, unprocessable] }]⟩]

/-- The document of a service by its short name. -/
def named? (name : String) : Option ApiDocument :=
  if name = "map" then some map else if name = "archive" then some archive else none

end ApiDocument

end BinFleet.Web
