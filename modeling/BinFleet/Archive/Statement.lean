import BinFleet.Marker

namespace BinFleet.Archive

/-- A value bound to a place in a statement. -/
inductive SqlValue where
  | text (s : String)
  | number (x : Float)
  | integer (n : Int)
  | time (t : Time.Instant)

inductive Statement where
  /-- Stores the latest marker of a device and counts its reading. -/
  | upsertDevice (marker : Marker)
  /-- Appends a reading and gives its number. -/
  | insertReading (update : MarkerUpdate)
  | listDevices
  /-- The latest readings of a device, oldest first. -/
  | listReadings (deviceId : String) (limit : Int)
  | findDevice (deviceId : String)

namespace Statement

def sql : Statement → String
  | upsertDevice _ =>
    "INSERT INTO bin_devices(device_id, lat, lng, percent, color, readings_count, first_seen_at, updated_at) " ++
      "VALUES($1, $2, $3, $4, $5, 1, $6, $6) " ++
      "ON CONFLICT (device_id) DO UPDATE SET lat = EXCLUDED.lat, lng = EXCLUDED.lng, " ++
      "percent = EXCLUDED.percent, color = EXCLUDED.color, " ++
      "readings_count = bin_devices.readings_count + 1, updated_at = EXCLUDED.updated_at;"
  | insertReading _ =>
    "INSERT INTO bin_readings(device_id, distance, lat, lat_scale, long, long_scale, gps_msg, source, " ++
      "percent, color, pos_lat, pos_lng, received_at) " ++
      "VALUES($1, $2, $3, $4, $5, $6, $7, $8, $9, $10, $11, $12, $13) RETURNING id;"
  | listDevices =>
    "SELECT device_id, lat, lng, percent, color, readings_count, first_seen_at, updated_at " ++
      "FROM bin_devices ORDER BY device_id;"
  | listReadings _ _ =>
    "SELECT id, device_id, distance, lat, lat_scale, long, long_scale, gps_msg, source, " ++
      "percent, color, pos_lat, pos_lng, received_at " ++
      "FROM ( SELECT * FROM bin_readings WHERE device_id = $1 ORDER BY id DESC LIMIT $2 ) latest ORDER BY id;"
  | findDevice _ => "SELECT 1 FROM bin_devices WHERE device_id = $1;"

def arguments : Statement → List SqlValue
  | upsertDevice m =>
    [.text m.deviceId, .number m.position.lat, .number m.position.lng, .number m.percent, .text m.color,
      .time m.updatedAt]
  | insertReading u =>
    [.text u.marker.deviceId, .number u.reading.distance, .number u.reading.lat, .number u.reading.latScale,
      .number u.reading.long, .number u.reading.longScale, .text u.reading.gpsMessage, .text u.reading.source,
      .number u.marker.percent, .text u.marker.color, .number u.marker.position.lat,
      .number u.marker.position.lng, .time u.reading.receivedAt]
  | listDevices => []
  | listReadings deviceId limit => [.text deviceId, .integer limit]
  | findDevice deviceId => [.text deviceId]

end Statement

end BinFleet.Archive
