namespace BinFleet

def helpText : String :=
  "smarTrash - live fill level map for smart trash bins

Usage:
  smartrash --mode=<mode> [--config-path=config.yaml]
  smartrash --help

Modes:
  map-service      subscribe to bin telemetry over MQTT, serve the live map, the HTTP API and WebSocket updates
  archive-service  consume marker events from RabbitMQ and keep the reading history in PostgreSQL

Options:
  --mode         service mode (required)
  --config-path  path to the YAML config file (default: config.yaml)
  --help         show this message

Every config key can be overridden by an environment variable, e.g.
  MQTT_BROKER_URL, MQTT_TOPIC, MAP_MAX_DISTANCE, RABBITMQ_ENABLED, DATABASE_HOST, AUTH_JWT_SECRET
"

end BinFleet
