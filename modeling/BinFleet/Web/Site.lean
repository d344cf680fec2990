import BinFleet.Settings.Config
import BinFleet.Web.ArchiveApi
import BinFleet.Web.Documentation
import BinFleet.Web.Health
import BinFleet.Web.MapApi
import BinFleet.Web.Negotiation
import BinFleet.Web.Page

namespace BinFleet.Web

/-- Which parts a site is given. -/
structure Parts where
  mapService : Bool
  markerStream : Bool
  page : Bool
  archiveService : Bool
  deriving DecidableEq, Repr

/-- Why a site cannot be set up from its parts. -/
def Parts.missing? (p : Parts) (mode : String) : Option String :=
  match Mode.ofName? mode with
  | some .map =>
    if p.mapService && p.markerStream && p.page then none
    else some "map service, marker hub and page are required"
  | some .archive => if p.archiveService then none else some "archive service is required"
  | none => some ("invalid mode: " ++ mode)

/-- What stands around every site. -/
structure Surroundings where
  authority : Option Authority
  health : List HealthCheck
  /-- An id for a request without one. -/
  freshRequestId : String
  /-- How the time that a request took is written. -/
  elapsed : String

variable {σ : Type}

/-- The whole way of a request: crashes are caught outermost, and the operator is known innermost. -/
def chain [Journaled σ] (c : Surroundings) (service : String) (inner : Handler σ) : Handler σ :=
  recovering (identified c.freshRequestId (measured service (logged c.elapsed
    (authenticated c.authority inner))))

/-- A route without values. -/
def Route.plain (method : Option String) (pattern : List Segment) (handler : Handler σ) : Route σ :=
  ⟨method, pattern, fun _ => handler⟩

/-- A route with one value. -/
def Route.device (method : String) (pattern : List Segment) (handler : List UInt8 → Handler σ) : Route σ :=
  ⟨some method, pattern, fun values => handler (values.headD [])⟩

def commonRoutes [Journaled σ] (c : Surroundings) (service : String) (d : ApiDocument) : List (Route σ) :=
  [.plain (some "GET") [.literal "health"] (healthHandler service c.health),
    .plain none Documentation.pattern (Documentation.handler d),
    .plain (some "GET") [.literal "metrics"] metricsHandler]

/-- What the map's site is made of. -/
structure MapSite (σ : Type) where
  service : Fleet.Service σ
  stream : Live.Stream σ
  page : Page
  takeOver : σ → Except String Uuid

namespace MapSite

def api (names : List String) : List Segment := .literal "api" :: names.map .literal

def deviceRoute (rest : List String) : List Segment :=
  [.literal "api", .literal "devices", .any] ++ rest.map .literal

def forOperators (next : Handler (Fleet.State σ)) : Handler (Fleet.State σ) :=
  requiringRoles [Access.operatorRole] next

def routes (m : MapSite σ) : List (Route (Fleet.State σ)) :=
  [.plain (some "GET") [.literal "/"] m.page.handler,
    .plain (some "GET") [.literal "ws", .literal "markers"] (MapApi.liveMarkers m.stream m.takeOver),
    .plain (some "GET") (api ["markers"]) MapApi.listMarkers,
    .plain (some "GET") (api ["markers", "nearby"]) MapApi.listNearby,
    .plain (some "GET") (api ["stats"]) (MapApi.stats m.service),
    .device "GET" (deviceRoute []) (MapApi.device m.service),
    .device "GET" (deviceRoute ["history"]) MapApi.history,
    .device "GET" (deviceRoute ["history.csv"]) MapApi.historyTable,
    .plain (some "POST") (api ["readings"]) (forOperators (MapApi.postReading m.service)),
    .device "DELETE" (deviceRoute []) fun id => forOperators (MapApi.deleteDevice m.service id)]

def handler (m : MapSite σ) (c : Surroundings) : Handler (Fleet.State σ) :=
  let name := Mode.map.name
  chain c name (Router.serve (commonRoutes c name ApiDocument.map ++ m.routes))

end MapSite

namespace ArchiveSite

def routes (db : Archive.Database σ) : List (Route (Archive.State σ)) :=
  [.plain (some "GET") [.literal "archive", .literal "devices"] (ArchiveApi.listDevices db),
    .device "GET" [.literal "archive", .literal "devices", .any, .literal "readings"]
      (ArchiveApi.listReadings db)]

def handler (db : Archive.Database σ) (c : Surroundings) : Handler (Archive.State σ) :=
  let name := Mode.archive.name
  chain c name (Router.serve (commonRoutes c name ApiDocument.archive ++ routes db))

end ArchiveSite

end BinFleet.Web
