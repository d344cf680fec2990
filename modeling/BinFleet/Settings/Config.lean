import BinFleet.Fault
import BinFleet.Number.Layout
import BinFleet.Settings.Schema
import BinFleet.Text.Table
import BinFleet.Url

namespace BinFleet

open Settings

/-- What a process serves. -/
inductive Mode where
  | map
  | archive
  deriving DecidableEq, Repr

namespace Mode

def name : Mode → String
  | map => "map-service"
  | archive => "archive-service"

def ofName? (s : String) : Option Mode :=
  if s = map.name then some map else if s = archive.name then some archive else none

/-- The mode that a process is started in. -/
def select (s : String) : Except Fault Mode :=
  match ofName? s with
  | some m => .ok m
  | none => .error (.wrapped "" (.known .invalidMode) (": " ++ Text.Quoted.encode s))

end Mode

structure TelemetryConfig where
  brokerUrl : Octets := []
  clientId : Octets := []
  topic : Octets := []
  qos : Nat := 0
  username : Octets := []
  password : Octets := []
  keepAlive : Time.Span := ⟨0⟩
  connectTimeout : Time.Span := ⟨0⟩
  embeddedBroker : Bool := false
  embeddedBrokerAddress : Octets := []

namespace TelemetryConfig

def schema : Schema TelemetryConfig :=
  [⟨"MQTT_BROKER_URL", some "ws://broker.mqttdashboard.com:8000/mqtt", .text, fun v c => { c with brokerUrl := v }⟩,
    ⟨"MQTT_CLIENT_ID", some "smartrash-map", .text, fun v c => { c with clientId := v }⟩,
    ⟨"MQTT_TOPIC", some "huji_iot_class/2021_2022/smarTrash", .text, fun v c => { c with topic := v }⟩,
    ⟨"MQTT_QOS", some "0", .unsigned 8, fun v c => { c with qos := v }⟩,
    ⟨"MQTT_USERNAME", none, .text, fun v c => { c with username := v }⟩,
    ⟨"MQTT_PASSWORD", none, .text, fun v c => { c with password := v }⟩,
    ⟨"MQTT_KEEP_ALIVE", some "30s", .span, fun v c => { c with keepAlive := v }⟩,
    ⟨"MQTT_CONNECT_TIMEOUT", some "10s", .span, fun v c => { c with connectTimeout := v }⟩,
    ⟨"MQTT_EMBEDDED_BROKER", some "false", .switch, fun v c => { c with embeddedBroker := v }⟩,
    ⟨"MQTT_EMBEDDED_BROKER_ADDR", some "127.0.0.1:1883", .text,
      fun v c => { c with embeddedBrokerAddress := v }⟩]

/-- The broker that the client connects to. -/
def broker (c : TelemetryConfig) : Octets :=
  if c.embeddedBroker then Text.Utf8.ofString "tcp://" ++ c.embeddedBrokerAddress else c.brokerUrl

end TelemetryConfig

structure MapConfig where
  maxDistance : Float := 0.0
  alertPercent : Float := 0.0
  sharedScale : Bool := false
  centreLat : Float := 0.0
  centreLng : Float := 0.0
  zoom : Int := 0
  title : Octets := []

def MapConfig.schema : Schema MapConfig :=
  [⟨"MAP_MAX_DISTANCE", some "100", .double, fun v c => { c with maxDistance := v }⟩,
    ⟨"MAP_ALERT_PERCENT", some "20", .double, fun v c => { c with alertPercent := v }⟩,
    ⟨"MAP_LEGACY_LONGITUDE_SCALE", some "true", .switch, fun v c => { c with sharedScale := v }⟩,
    ⟨"MAP_CENTER_LAT", some "31.77480304008521", .double, fun v c => { c with centreLat := v }⟩,
    ⟨"MAP_CENTER_LNG", some "35.19783738032892", .double, fun v c => { c with centreLng := v }⟩,
    ⟨"MAP_ZOOM", some "15", .signed 64, fun v c => { c with zoom := v }⟩,
    ⟨"MAP_TITLE", some "smarTrash", .text, fun v c => { c with title := v }⟩]

/-- A server address whose parts may hold any octets. -/
structure ServerAddress where
  scheme : String
  user : Octets
  password : Octets
  host : Octets
  path : Octets
  query : String

namespace ServerAddress

/-- Octets kept in a user name or password: besides the unreserved ones `$&+,;=`. -/
def keptInUser (b : UInt8) : Bool :=
  Url.isUnreserved b || [0x24, 0x26, 0x2b, 0x2c, 0x3b, 0x3d].contains b

/-- Octets kept in a host: besides the unreserved ones `!"$&'()*+,:;<=>[]`. -/
def keptInHost (b : UInt8) : Bool :=
  Url.isUnreserved b ||
    [0x21, 0x22, 0x24, 0x26, 0x27, 0x28, 0x29, 0x2a, 0x2b, 0x2c, 0x3a, 0x3b, 0x3c, 0x3d, 0x3e, 0x5b,
      0x5d].contains b

def encode (keep : UInt8 → Bool) (bytes : Octets) : String := String.ofList (Url.encodeWith keep bytes)

/-- A path starts with a slash; a lone asterisk is not encoded. -/
def renderPath (path : Octets) : String :=
  let encoded := if path = [0x2a] then "*" else encode Url.keptInPath path
  if encoded = "" || encoded.toList.head? == some '/' then encoded else "/" ++ encoded

def render (a : ServerAddress) : String :=
  a.scheme ++ "://" ++ encode keptInUser a.user ++ ":" ++ encode keptInUser a.password ++ "@" ++
    encode keptInHost a.host ++ renderPath a.path ++ (if a.query = "" then "" else "?" ++ a.query)

end ServerAddress

/-- A host and a port with a colon between them. -/
def hostAndPort (host port : Octets) : Octets := host ++ 0x3a :: port

structure DatabaseConfig where
  host : Octets := []
  port : Octets := []
  user : Octets := []
  password : Octets := []
  database : Octets := []
  maxConnections : Int := 0
  minConnections : Int := 0
  connectionLifetime : Time.Span := ⟨0⟩
  connectionIdleTime : Time.Span := ⟨0⟩

namespace DatabaseConfig

def schema : Schema DatabaseConfig :=
  [⟨"DATABASE_HOST", some "localhost", .text, fun v c => { c with host := v }⟩,
    ⟨"DATABASE_PORT", some "5432", .text, fun v c => { c with port := v }⟩,
    ⟨"DATABASE_USER", some "smartrash_user", .text, fun v c => { c with user := v }⟩,
    ⟨"DATABASE_PASSWORD", some "smartrash_pass", .text, fun v c => { c with password := v }⟩,
    ⟨"DATABASE_DATABASE", some "smartrash_db", .text, fun v c => { c with database := v }⟩,
    ⟨"DATABASE_MAXCONNS", some "20", .signed 32, fun v c => { c with maxConnections := v }⟩,
    ⟨"DATABASE_MINCONNS", some "2", .signed 32, fun v c => { c with minConnections := v }⟩,
    ⟨"DATABASE_MAXCONNLIFETIME", some "30m", .span, fun v c => { c with connectionLifetime := v }⟩,
    ⟨"DATABASE_MAXCONNIDLETIME", some "5m", .span, fun v c => { c with connectionIdleTime := v }⟩]

def address (c : DatabaseConfig) : ServerAddress :=
  ⟨"postgres", c.user, c.password, hostAndPort c.host c.port, c.database, "sslmode=disable"⟩

end DatabaseConfig

structure QueueConfig where
  enabled : Bool := false
  host : Octets := []
  port : Octets := []
  user : Octets := []
  password : Octets := []
  outboxSize : Int := 0

namespace QueueConfig

def schema : Schema QueueConfig :=
  [⟨"RABBITMQ_ENABLED", some "false", .switch, fun v c => { c with enabled := v }⟩,
    ⟨"RABBITMQ_HOST", some "localhost", .text, fun v c => { c with host := v }⟩,
    ⟨"RABBITMQ_PORT", some "5672", .text, fun v c => { c with port := v }⟩,
    ⟨"RABBITMQ_USER", some "guest", .text, fun v c => { c with user := v }⟩,
    ⟨"RABBITMQ_PASSWORD", some "guest", .text, fun v c => { c with password := v }⟩,
    ⟨"RABBITMQ_OUTBOX_SIZE", some "1024", .signed 64, fun v c => { c with outboxSize := v }⟩]

def address (c : QueueConfig) : ServerAddress :=
  ⟨"amqp", c.user, c.password, hostAndPort c.host c.port, [0x2f], ""⟩

end QueueConfig

structure AuthConfig where
  tokenLifetime : Time.Span := ⟨0⟩
  secret : Octets := []

namespace AuthConfig

/-- The secret used when none is configured. -/
def developmentSecret : String := "supersecretkey"

def schema : Schema AuthConfig :=
  [⟨"AUTH_ACCESS_TOKEN_TTL", some "12h", .span, fun v c => { c with tokenLifetime := v }⟩,
    ⟨"AUTH_JWT_SECRET", some developmentSecret, .text, fun v c => { c with secret := v }⟩]

end AuthConfig

structure Config where
  mode : String := ""
  logLevel : Octets := []
  telemetry : TelemetryConfig := {}
  map : MapConfig := {}
  database : DatabaseConfig := {}
  queue : QueueConfig := {}
  addressKey : Octets := []
  mapPort : Octets := []
  archivePort : Octets := []
  auth : AuthConfig := {}

namespace Config

def schema : Schema Config :=
  [⟨"LOG_LEVEL", some "INFO", .text, fun v c => { c with logLevel := v }⟩] ++
    TelemetryConfig.schema.within (fun f c => { c with telemetry := f c.telemetry }) ++
    MapConfig.schema.within (fun f c => { c with map := f c.map }) ++
    DatabaseConfig.schema.within (fun f c => { c with database := f c.database }) ++
    QueueConfig.schema.within (fun f c => { c with queue := f c.queue }) ++
    [⟨"LOCATIONIQ_API_KEY", none, .text, fun v c => { c with addressKey := v }⟩,
      ⟨"SERVICES_MAP_SERVICE", some "3000", .text, fun v c => { c with mapPort := v }⟩,
      ⟨"SERVICES_ARCHIVE_SERVICE", some "3001", .text, fun v c => { c with archivePort := v }⟩] ++
    AuthConfig.schema.within (fun f c => { c with auth := f c.auth })

def isMap (c : Config) : Bool := c.mode == Mode.map.name

/-- The first rule that a configuration breaks. -/
def broken? (c : Config) : Option Cause :=
  if 2 < c.telemetry.qos then some .invalidQos
  else if c.map.maxDistance ≤ 0.0 then some .invalidDistance
  else if c.isMap && (Text.trimSymbols (Text.Utf8.symbols c.auth.secret)).isEmpty then some .emptySecret
  else none

/-- Settings that work but should not reach production. -/
def warnings (c : Config) : List String :=
  if c.isMap && c.auth.secret == Text.Utf8.ofString AuthConfig.developmentSecret then
    ["AUTH_JWT_SECRET is the public development default, anyone can sign operator tokens"]
  else []

/-- The configuration that an environment describes. -/
def ofEnvironment (e : Environment) : Except Fault Config :=
  match schema.fill e {} with
  | (c, none) => .ok c
  | (_, some error) => .error (.wrapped "failed to load and parse config: " (.other error.message) "")

def withMode (c : Config) (mode : String) : Except Fault Config :=
  if mode = "" then .error (.wrapped "failed to parse flags: " (.known .modeNotProvided) "")
  else .ok { c with mode }

def validated (c : Config) : Except Fault Config :=
  match c.broken? with
  | some cause => .error (.known cause)
  | none => .ok c

/-- The environment after loading a file, if there is one, and the configuration it describes. -/
def load (e : Environment) (file : Option Octets) (mode : String) :
    Environment × Except Fault Config :=
  let (loaded, error) :=
    match file with
    | some bytes => Settings.load e bytes
    | none => (e, none)
  let config :=
    match error with
    | some error => .error (.wrapped "failed to load and parse config: " (.other error.message) "")
    | none => do
      let c ← ofEnvironment loaded
      let c ← c.withMode mode
      c.validated
  (loaded, config)

/-- Secrets are shown as stars. -/
def hidden (secret : Octets) : String := if secret.isEmpty then "" else "******"

def switch (b : Bool) : String := if b then "true" else "false"

def number (x : Float) : String := Number.Layout.compact.write x

/-- A name and a value as they stand. -/
def row (key : String) (value : Octets) : String × Octets := (key, value)

def textRow (key value : String) : String × Octets := (key, Text.Utf8.ofString value)

def rows (c : Config) : List (String × Octets) :=
  [textRow "mode" c.mode, row "log_level" c.logLevel, row "mqtt.broker" c.telemetry.broker,
    row "mqtt.client_id" c.telemetry.clientId, row "mqtt.topic" c.telemetry.topic,
    textRow "mqtt.qos" (toString c.telemetry.qos), row "mqtt.username" c.telemetry.username,
    textRow "mqtt.password" (hidden c.telemetry.password),
    textRow "mqtt.embedded_broker" (switch c.telemetry.embeddedBroker),
    textRow "map.max_distance" (number c.map.maxDistance),
    textRow "map.alert_percent" (number c.map.alertPercent),
    textRow "map.legacy_longitude_scale" (switch c.map.sharedScale),
    textRow "map.center" (number c.map.centreLat ++ "," ++ number c.map.centreLng),
    textRow "map.zoom" (toString c.map.zoom), row "services.map_service" c.mapPort,
    row "services.archive_service" c.archivePort,
    row "database.host" (hostAndPort c.database.host c.database.port),
    row "database.user" c.database.user, textRow "database.password" (hidden c.database.password),
    row "database.database" c.database.database, textRow "rabbitmq.enabled" (switch c.queue.enabled),
    row "rabbitmq.host" (hostAndPort c.queue.host c.queue.port),
    textRow "rabbitmq.password" (hidden c.queue.password),
    textRow "auth.access_token_ttl" c.auth.tokenLifetime.render,
    textRow "auth.jwt_secret" (hidden c.auth.secret), textRow "locationiq.api_key" (hidden c.addressKey)]

def rowLine (r : String × Octets) : Octets :=
  Text.Utf8.ofString ("  " ++ r.1 ++ "\t") ++ r.2 ++ [0x0a]

/-- The configuration as aligned lines. -/
def printout (c : Config) : Octets :=
  Text.Table.align (Text.Utf8.ofString "Configuration:\n" ++ c.rows.flatMap rowLine)

end Config

end BinFleet
