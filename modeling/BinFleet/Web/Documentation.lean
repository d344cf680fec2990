import BinFleet.Web.ApiDocument
import BinFleet.Web.Router

namespace BinFleet.Web

namespace Documentation

def pattern : List Segment := [.literal "swagger", .rest]

/-- A folder, which ends with a slash, and what is asked for in it. -/
structure Place where
  folder : String
  page : String
  deriving DecidableEq, Repr

def isFiller (c : Char) : Bool := c == '?' || c == '|' || c == '.'

/-- What is asked for behind a slash; a question mark there may only lead to fillers. -/
def page? (rest : List Char) : Option (List Char) :=
  if rest.head? = some '?' then if rest.all isFiller then some [] else none
  else some rest

/-- The place behind the last slash that has one; `before` is the target up to here, last
character first. -/
def placeInto (before : List Char) : List Char → Option Place
  | [] => none
  | c :: rest =>
    placeInto (c :: before) rest <|>
      (if c = '/' then (page? rest).map fun p => ⟨String.ofList (c :: before).reverse, String.ofList p⟩
      else none)

def place (target : String) : Place := (placeInto [] target.toList).getD ⟨"", target⟩

/-- The text after the last point of the last segment. -/
def extension? (page : String) : Option String :=
  let last := page.toList.reverse.takeWhile (· ≠ '/')
  if last.contains '.' then some (String.ofList (last.takeWhile (· ≠ '.')).reverse) else none

def contentType? (page : String) : Option String :=
  match extension? page with
  | some "html" => some "text/html; charset=utf-8"
  | some "css" => some "text/css; charset=utf-8"
  | some "js" => some "application/javascript"
  | some "png" => some "image/png"
  | some "json" => some "application/json; charset=utf-8"
  | _ => none

/-- Where a path leads inside the folder. -/
def inside? (folder : String) (path : List UInt8) : Option (List UInt8) :=
  let start := Text.Utf8.ofString folder
  if start.isPrefixOf path then some (path.drop start.length) else none

/-- Other pages are not known, and the folder itself cannot be shown. -/
def missingStatus (folder : String) (path : List UInt8) : Int :=
  if (inside? folder path).any fun rest => Router.cleanOctets rest == [0x2f] then 405 else 404

/-- What is written for a page. -/
def writes (d : ApiDocument) (folder : String) (r : Request) (page : String) : List Write :=
  let head : List Write := (contentType? page).toList.map (.header "Content-Type" ·)
  if page = "doc.json" then head ++ [.body d.render]
  else if page = "" then Router.redirect r.method 301 (folder ++ "index.html")
  else
    let status := missingStatus folder r.path
    head ++ [.status status, .body (reason status)]

/-- Serves the description itself and leads from its folder to the page that shows it. -/
def handler {σ : Type} [Journaled σ] (d : ApiDocument) : Handler σ := fun v s =>
  let r := v.request
  if r.method ≠ "GET" then (s, ⟨plainError 405 "Method not allowed", .returned ()⟩)
  else
    let p := place r.target.text
    let s := Journaled.record (·.openDocumentation p.folder) s
    let folder := (Journaled.journal s).documentation.getD p.folder
    (s, ⟨writes d folder r p.page, .returned ()⟩)

end Documentation

end BinFleet.Web
