import BinFleet.Text.Blank

namespace BinFleet.Csv

/-- A field is quoted when it holds a comma, a quote or a line break, when it starts with white space,
or when it is `\.`. -/
def needsQuotes (field : List Char) : Bool :=
  match field with
  | [] => false
  | c :: _ =>
    field == ['\\', '.'] || field.any (fun c => c == ',' || c == '"' || c == '\r' || c == '\n') ||
      Text.isBlank c

/-- Between quotes, inner quotes doubled. -/
def quote (field : List Char) : List Char :=
  '"' :: (field.flatMap (fun c => if c = '"' then ['"', '"'] else [c]) ++ ['"'])

def renderField (field : String) : List Char :=
  if needsQuotes field.toList then quote field.toList else field.toList

def renderFields : List String → List Char
  | [] => []
  | [f] => renderField f
  | f :: rest => renderField f ++ ',' :: renderFields rest

/-- One record a line. -/
def render (records : List (List String)) : String :=
  String.ofList (records.flatMap fun r => renderFields r ++ ['\n'])

end BinFleet.Csv
