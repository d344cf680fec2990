import BinFleet.History
import BinFleet.Reading

namespace BinFleet.Telemetry

def firmwareJson (r : Reading) : Json :=
  .object [("id", .ofText r.id), ("gps_msg", .ofText r.gpsMessage),
    ("distance", .ofText (History.number r.distance)), ("lat", .ofText (History.number r.lat)),
    ("lat_scale", .ofText (History.number r.latScale)), ("long", .ofText (History.number r.long)),
    ("long_scale", .ofText (History.number r.longScale))]

def firmwarePayload (r : Reading) : String := (firmwareJson r).compact

end BinFleet.Telemetry
