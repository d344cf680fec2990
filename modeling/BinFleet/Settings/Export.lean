import BinFleet.Settings.Config
import BinFleet.View

namespace BinFleet.View

/-- Octets as far as they are a text. -/
def octets (bytes : Octets) : Json := text (Text.Utf8.toString bytes)

def environment (e : Environment) : Json := .array (e.lines.map octets)

def span (s : Time.Span) : Json := text s.render

def telemetryConfig (c : TelemetryConfig) : Json :=
  .object [("broker_url", octets c.brokerUrl), ("client_id", octets c.clientId), ("topic", octets c.topic),
    ("qos", .ofNat c.qos), ("username", octets c.username), ("password", octets c.password),
    ("keep_alive", span c.keepAlive), ("connect_timeout", span c.connectTimeout),
    ("embedded_broker", .bool c.embeddedBroker), ("embedded_broker_addr", octets c.embeddedBrokerAddress)]

def mapConfig (c : MapConfig) : Json :=
  .object [("max_distance", number c.maxDistance), ("alert_percent", number c.alertPercent),
    ("legacy_longitude_scale", .bool c.sharedScale), ("center_lat", number c.centreLat),
    ("center_lng", number c.centreLng), ("zoom", .ofInt c.zoom), ("title", octets c.title)]

def databaseConfig (c : DatabaseConfig) : Json :=
  .object [("host", octets c.host), ("port", octets c.port), ("user", octets c.user), ("password", octets c.password),
    ("database", octets c.database), ("max_conns", .ofInt c.maxConnections),
    ("min_conns", .ofInt c.minConnections), ("max_conn_lifetime", span c.connectionLifetime),
    ("max_conn_idle_time", span c.connectionIdleTime)]

def queueConfig (c : QueueConfig) : Json :=
  .object [("enabled", .bool c.enabled), ("host", octets c.host), ("port", octets c.port), ("user", octets c.user),
    ("password", octets c.password), ("outbox_size", .ofInt c.outboxSize)]

def config (c : Config) : Json :=
  .object [("mode", text c.mode), ("log_level", octets c.logLevel), ("mqtt", telemetryConfig c.telemetry),
    ("map", mapConfig c.map), ("database", databaseConfig c.database), ("rabbitmq", queueConfig c.queue),
    ("locationiq_api_key", octets c.addressKey),
    ("services", .object [("map_service", octets c.mapPort), ("archive_service", octets c.archivePort)]),
    ("auth", .object [("access_token_ttl", span c.auth.tokenLifetime), ("jwt_secret", octets c.auth.secret)])]

end BinFleet.View
