import BinFleet.Fault
import BinFleet.History
import BinFleet.Json.Reader
import BinFleet.Text.Quoted
import BinFleet.Url

namespace BinFleet

/-- What a request to the address service comes to. -/
inductive Exchange where
  | failed (text : String)
  | answered (status : Int) (body : List UInt8)

/-- The addresses that are known, by rounded position. -/
structure AddressBook where
  apiKey : String
  known : List (String × String) := []
  deriving DecidableEq, Repr

/-- A look-up: the request it sent, if any, and its result. -/
structure AddressLookup where
  request : Option String
  result : Except Fault String

namespace AddressBook

def find? (b : AddressBook) (key : String) : Option String := (b.known.find? (·.1 == key)).map (·.2)

/-- Five places of latitude and longitude. -/
def placeKey (lng lat : Float) : String := Number.writeFixed 5 lat ++ "," ++ Number.writeFixed 5 lng

def requestUrl (b : AddressBook) (lng lat : Float) : String :=
  "https://us1.locationiq.com/v1/reverse?format=json&key=" ++ Url.encodeQuery b.apiKey ++ "&lat=" ++
    Url.encodeQuery (History.number lat) ++ "&lon=" ++ Url.encodeQuery (History.number lng)

/-- The address in the first JSON value of a body. -/
def addressOf? (body : List UInt8) : Option String :=
  match Json.readFirst (Text.Utf8.decode body) with
  | .value j _ =>
    (j.overFields (fun old key v => if Text.sameName key "display_name" then v.toText old else .ok old) "").toOption
  | _ => none

def operation : String := "LocationIQClient.GetAddress"

/-- The address that an answer gives. The fault of an unreadable one does not repeat what the reader found. -/
def read (context : LogContext) (url : String) : Exchange → Except Fault String
  | .failed text =>
    .error (.tagged (context.withAction "external_service_failed") (.other
      (operation ++ ": failed to make request to LocationIQ: Get " ++ Text.Quoted.encode url ++ ": " ++ text)))
  | .answered status body =>
    if status ≠ 200 then
      .error (.tagged (context.withAction "external_service_failed")
        (.other (operation ++ ": unexpected response status " ++ toString status)))
    else
      match addressOf? body with
      | some address => .ok address
      | none =>
        .error (.tagged (context.withAction "decode_address_payload")
          (.other (operation ++ ": failed to decode data from LocationIQ response")))

/-- Looks an address up; `exchange` is what a request would come to. -/
def lookup (b : AddressBook) (context : LogContext) (lng lat : Float) (exchange : Exchange) :
    AddressBook × AddressLookup :=
  if b.apiKey = "" then (b, ⟨none, .error (.known .addressLookupDisabled)⟩)
  else
    let key := placeKey lng lat
    match b.find? key with
    | some address => (b, ⟨none, .ok address⟩)
    | none =>
      let url := b.requestUrl lng lat
      let result := read context url exchange
      match result with
      | .ok address => ({ b with known := (key, address) :: b.known }, ⟨some url, result⟩)
      | .error _ => (b, ⟨some url, result⟩)

end AddressBook

end BinFleet
