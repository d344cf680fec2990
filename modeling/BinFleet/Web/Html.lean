namespace BinFleet.Web.Html

def escapeChar (c : Char) : List Char :=
  match c with
  | '&' => ['&', 'a', 'm', 'p', ';']
  | '<' => ['&', 'l', 't', ';']
  | '>' => ['&', 'g', 't', ';']
  | '"' => ['&', '#', '3', '4', ';']
  | '\'' => ['&', '#', '3', '9', ';']
  | c => [c]

/-- Text without markup. -/
def escape (s : String) : String := String.ofList (s.toList.flatMap escapeChar)

/-- As `escapeChar`, also safe where another encoding might be guessed. -/
def escapeCharStrictly (c : Char) : List Char :=
  match c with
  | '+' => ['&', '#', '4', '3', ';']
  | '\x00' => ['\ufffd']
  | c => escapeChar c

def escapeStrictly (s : String) : String := String.ofList (s.toList.flatMap escapeCharStrictly)

end BinFleet.Web.Html
