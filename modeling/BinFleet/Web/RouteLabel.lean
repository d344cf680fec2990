import BinFleet.Text.Blank
import BinFleet.Text.Utf8

namespace BinFleet.Web.RouteLabel

def placeholder : List UInt8 := Text.Utf8.ofString "\x7bdevice_id\x7d"

/-- The segment before the one that names a device. -/
def devices : List UInt8 := Text.Utf8.ofString "devices"

/-- Relabels the segments after a first one that is kept. -/
def relabel (previous : List UInt8) : List (List UInt8) → List (List UInt8)
  | [] => []
  | s :: rest =>
    let label := if previous = devices ∧ s ≠ [] then placeholder else s
    label :: relabel label rest

/-- The segment after `devices` is replaced by its name, so that there is one label for all devices. -/
def ofPath (path : List UInt8) : List UInt8 :=
  match Text.splitList 0x2f path with
  | [] => []
  | first :: rest => [0x2f].intercalate (first :: relabel first rest)

end BinFleet.Web.RouteLabel
