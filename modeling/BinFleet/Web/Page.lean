import BinFleet.Number.Layout
import BinFleet.Web.Handler
import BinFleet.Web.Html
import BinFleet.Web.Status

namespace BinFleet.Web

structure Page where
  title : String
  lat : Float
  lng : Float
  zoom : Int
  /-- The path of the marker stream. -/
  stream : String

namespace Page

/-- A value inside a script, apart from the words around it. -/
def scriptWord (s : String) : String := " " ++ s ++ " "

/-- A number inside a script; one that scripts cannot spell becomes `null`. -/
def scriptNumber (x : Float) : String :=
  let text := Number.Layout.json.write x
  if Number.isFinite x then scriptWord text
  else scriptWord ("/* json: unsupported value: " ++ text ++ " */null")

/-- The page up to its title. -/
def beforeTitle : List String :=
  ["<!DOCTYPE html>",
    "<html lang=\"en\">",
    "<head>",
    "  <meta charset=\"utf-8\">",
    "  <meta name=\"viewport\" content=\"width=device-width, initial-scale=1\">"]

/-- From the title to the map. -/
def beforeMap : List String :=
  ["  <link rel=\"stylesheet\" href=\"https://unpkg.com/leaflet@1.9.4/dist/leaflet.css\">",
    "  <style>",
    "    html, body, #map \x7b height: 100%; margin: 0; \x7d",
    "    #status \x7b position: absolute; z-index: 1000; right: 8px; bottom: 24px; padding: 4px 8px;",
    "              background: #fff; border-radius: 4px; font: 12px sans-serif; \x7d",
    "    .bin-marker \x7b background: none; border: none; \x7d",
    "  </style>",
    "</head>",
    "<body>"]

/-- From the map to the script. -/
def beforeScript : List String :=
  ["<div id=\"status\">connecting</div>",
    "<script src=\"https://unpkg.com/leaflet@1.9.4/dist/leaflet.js\"></script>",
    "<script>"]

/-- The script after its settings, and the end of the page. -/
def script : List String :=
  ["  L.tileLayer(\"https://\x7bs\x7d.tile.openstreetmap.org/\x7bz\x7d/\x7bx\x7d/\x7by\x7d.png\", \x7b",
    "    maxZoom: 19,",
    "    attribution: \"&copy; OpenStreetMap contributors\"",
    "  \x7d).addTo(map);",
    "",
    "  const markers = new Map();",
    "  const statusEl = document.getElementById(\"status\");",
    "",
    "  function icon(desc) \x7b",
    "    const size = 24 * desc.scale;",
    "    const svg = '<svg xmlns=\"http://www.w3.org/2000/svg\" width=\"' + size + '\" height=\"' + size +",
    "      '\" viewBox=\"0 0 24 24\"><path d=\"' + desc.path + '\" fill=\"' + desc.fillColor +",
    "      '\" fill-opacity=\"' + desc.fillOpacity + '\" stroke-width=\"' + desc.strokeWeight +",
    "      '\" transform=\"rotate(' + desc.rotation + ' 12 12)\"/></svg>';",
    "    return L.divIcon(\x7b",
    "      className: \"bin-marker\",",
    "      html: svg,",
    "      iconSize: [size, size],",
    "      iconAnchor: [desc.anchor.x, desc.anchor.y]",
    "    \x7d);",
    "  \x7d",
    "",
    "  function put(m) \x7b",
    "    const old = markers.get(m.device_id);",
    "    if (old) \x7b",
    "      map.removeLayer(old);",
    "    \x7d",
    "    const marker = L.marker([m.position.lat, m.position.lng], \x7b icon: icon(m.icon) \x7d)",
    "      .bindTooltip(m.device_id + \": \" + m.percent.toFixed(0) + \"%\")",
    "      .addTo(map);",
    "    markers.set(m.device_id, marker);",
    "  \x7d",
    "",
    "  function drop(id) \x7b",
    "    const old = markers.get(id);",
    "    if (old) \x7b",
    "      map.removeLayer(old);",
    "      markers.delete(id);",
    "    \x7d",
    "  \x7d",
    "",
    "  function connect() \x7b",
    "    const proto = location.protocol === \"https:\" ? \"wss://\" : \"ws://\";",
    "    const ws = new WebSocket(proto + location.host + document.getElementById(\"map\").dataset.stream);",
    "",
    "    ws.onopen = () => \x7b statusEl.textContent = \"live\"; \x7d;",
    "    ws.onclose = () => \x7b",
    "      statusEl.textContent = \"reconnecting\";",
    "      setTimeout(connect, 2000);",
    "    \x7d;",
    "    ws.onmessage = (ev) => \x7b",
    "      const msg = JSON.parse(ev.data);",
    "      switch (msg.type) \x7b",
    "        case \"snapshot\":",
    "          markers.forEach((_, id) => drop(id));",
    "          (msg.markers || []).forEach(put);",
    "          break;",
    "        case \"marker\":",
    "          put(msg.marker);",
    "          break;",
    "        case \"removed\":",
    "          drop(msg.device_id);",
    "          break;",
    "      \x7d",
    "    \x7d;",
    "  \x7d",
    "",
    "  connect();",
    "</script>",
    "</body>",
    "</html>",
    ""]

def lines (p : Page) : List String :=
  beforeTitle ++ ["  <title>" ++ Html.escapeStrictly p.title ++ "</title>"] ++
    beforeMap ++ ["<div id=\"map\" data-stream=\"" ++ Html.escapeStrictly p.stream ++ "\"></div>"] ++
    beforeScript ++
    ["  const center = [" ++ scriptNumber p.lat ++ ", " ++ scriptNumber p.lng ++ "];",
      "  const map = L.map(\"map\").setView(center, " ++ scriptWord (toString p.zoom) ++ ");"] ++
    script

def render (p : Page) : String := "\n".intercalate p.lines

def tag (p : Page) : String := entityTag (Text.Utf8.ofString p.render)

/-- Serves the page; a client that has it already gets no text. -/
def handler {σ : Type} (p : Page) : Handler σ := fun v s =>
  let tag := p.tag
  let head : List Write := [.header "Cache-Control" "no-cache", .header "Etag" tag]
  let writes :=
    if !v.request.isFor "/" then notFound
    else if v.request.header "If-None-Match" = tag then head ++ [.status 304]
    else head ++ [.header "Content-Type" "text/html; charset=utf-8", .body p.render]
  (s, ⟨writes, .returned ()⟩)

end Page

end BinFleet.Web
