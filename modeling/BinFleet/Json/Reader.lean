import BinFleet.Json.Basic
import BinFleet.Text.Hex

namespace BinFleet.Json

/-- A container that is still open; what it holds so far stands last one first. -/
inductive Frame where
  | array (items : List Json)
  | object (fields : List (String × Json))
  /-- An object whose next value belongs to `key`. -/
  | member (fields : List (String × Json)) (key : String)
  deriving Repr

/-- How far a number has been read. -/
inductive NumberPart where
  | sign
  | zero
  | whole
  | point
  | fraction
  | exponentMark
  | exponentSign
  | exponent
  deriving DecidableEq, Repr

/-- What the reader expects next. Texts in progress stand last character first. -/
inductive Mode where
  | value
  | firstItem
  | firstKey
  | key
  | colon
  | after
  | string (isKey : Bool) (body : List Char)
  | escape (isKey : Bool) (body : List Char)
  | hex (isKey : Bool) (missing : Nat) (body : List Char)
  | number (part : NumberPart) (text : List Char)
  | word (missing : List Char) (meaning : Json)
  deriving Repr

/-- Containers that are still open stand on a stack, so a document may be nested to the limit without deep
recursion. -/
structure Reader where
  mode : Mode
  frames : List Frame
  depth : Nat
  deriving Repr

/-- Result of reading one value from the front of a text. -/
inductive Outcome where
  /-- A value and what follows it. -/
  | value (v : Json) (rest : List Char)
  /-- No document continues like this; `rest` starts with the character that was not `expected`. -/
  | fault (expected : Mode) (rest : List Char)
  /-- The text ends too early. -/
  | incomplete
  deriving Repr

/-- What one character does. -/
inductive Step where
  | next (r : Reader)
  /-- The outermost value is complete and the character belongs to it. -/
  | done (v : Json)
  /-- The outermost value was complete before the character. -/
  | ended (v : Json)
  | refused
  deriving Repr

def isSpace (c : Char) : Bool := c == ' ' || c == '\t' || c == '\r' || c == '\n'

def isDigit (c : Char) : Bool := '0' ≤ c && c ≤ '9'

/-- How many containers may be open at once. -/
def nestingLimit : Nat := 10000

namespace Reader

def start : Reader := ⟨.value, [], 0⟩

/-- A value inside the open containers is complete. -/
def complete (v : Json) (frames : List Frame) (depth : Nat) : Option Reader :=
  match frames with
  | .array items :: outer => some ⟨.after, .array (v :: items) :: outer, depth⟩
  | .member fields key :: outer => some ⟨.after, .object ((key, v) :: fields) :: outer, depth⟩
  | _ => none

/-- As `complete`, also for the outermost value. -/
def finish (v : Json) (frames : List Frame) (depth : Nat) : Step :=
  match complete v frames depth with
  | some r => .next r
  | none => .done v

def pushFrame (r : Reader) (frame : Frame) (mode : Mode) : Step :=
  if nestingLimit ≤ r.depth then .refused else .next ⟨mode, frame :: r.frames, r.depth + 1⟩

/-- The first character of a value. -/
def beginValue (r : Reader) (c : Char) : Step :=
  match c with
  | '\x7b' => r.pushFrame (.object []) .firstKey
  | '[' => r.pushFrame (.array []) .firstItem
  | '"' => .next { r with mode := .string false [] }
  | '-' => .next { r with mode := .number .sign [c] }
  | '0' => .next { r with mode := .number .zero [c] }
  | 't' => .next { r with mode := .word ['r', 'u', 'e'] (.bool true) }
  | 'f' => .next { r with mode := .word ['a', 'l', 's', 'e'] (.bool false) }
  | 'n' => .next { r with mode := .word ['u', 'l', 'l'] .null }
  | c => if isDigit c then .next { r with mode := .number .whole [c] } else .refused

/-- Closes the innermost container. -/
def close (r : Reader) (c : Char) : Step :=
  match c, r.frames with
  | ']', .array items :: outer => finish (.array items.reverse) outer (r.depth - 1)
  | '\x7d', .object fields :: outer => finish (.object fields.reverse) outer (r.depth - 1)
  | _, _ => .refused

/-- After a value: a comma or the end of the container. -/
def afterValue (r : Reader) (c : Char) : Step :=
  match c, r.frames with
  | ',', .array _ :: _ => .next { r with mode := .value }
  | ',', .object _ :: _ => .next { r with mode := .key }
  | c, _ => r.close c

def endString (r : Reader) (isKey : Bool) (body : List Char) : Step :=
  let text := String.ofList body.reverse
  if isKey then
    match r.frames with
    | .object fields :: outer => .next ⟨.colon, .member fields text :: outer, r.depth⟩
    | _ => .refused
  else finish (.string text) r.frames r.depth

/-- A character of a number; `none` when the number is complete before it. -/
def numberPart? (part : NumberPart) (c : Char) : Option (Option NumberPart) :=
  let isE := c == 'e' || c == 'E'
  match part with
  | .sign => if c = '0' then some (some .zero) else some (if isDigit c then some .whole else none)
  | .zero => if c = '.' then some (some .point) else if isE then some (some .exponentMark) else none
  | .whole =>
    if isDigit c then some (some .whole)
    else if c = '.' then some (some .point)
    else if isE then some (some .exponentMark)
    else none
  | .point => some (if isDigit c then some .fraction else none)
  | .fraction =>
    if isDigit c then some (some .fraction)
    else if isE then some (some .exponentMark)
    else none
  | .exponentMark =>
    if c = '+' ∨ c = '-' then some (some .exponentSign)
    else some (if isDigit c then some .exponent else none)
  | .exponentSign => some (if isDigit c then some .exponent else none)
  | .exponent => if isDigit c then some (some .exponent) else none

/-- A number may end after this part. -/
def mayEnd : NumberPart → Bool
  | .zero | .whole | .fraction | .exponent => true
  | _ => false

def numberValue (text : List Char) : Json := .number (String.ofList text.reverse)

def step (r : Reader) (c : Char) : Step :=
  match r.mode with
  | .value => if isSpace c then .next r else r.beginValue c
  | .firstItem =>
    if isSpace c then .next r else if c = ']' then r.close c else r.beginValue c
  | .firstKey =>
    if isSpace c then .next r
    else if c = '\x7d' then r.close c
    else if c = '"' then .next { r with mode := .string true [] }
    else .refused
  | .key =>
    if isSpace c then .next r
    else if c = '"' then .next { r with mode := .string true [] }
    else .refused
  | .colon =>
    if isSpace c then .next r
    else if c = ':' then .next { r with mode := .value }
    else .refused
  | .after => if isSpace c then .next r else r.afterValue c
  | .string isKey body =>
    if c = '"' then r.endString isKey body
    else if c = '\\' then .next { r with mode := .escape isKey (c :: body) }
    else if c.toNat < 0x20 then .refused
    else .next { r with mode := .string isKey (c :: body) }
  | .escape isKey body =>
    if c = 'u' then .next { r with mode := .hex isKey 4 (c :: body) }
    else if c ∈ ['b', 'f', 'n', 'r', 't', '\\', '/', '"'] then
      .next { r with mode := .string isKey (c :: body) }
    else .refused
  | .hex isKey missing body =>
    if (Text.Hex.value? c).isNone then .refused
    else if missing ≤ 1 then .next { r with mode := .string isKey (c :: body) }
    else .next { r with mode := .hex isKey (missing - 1) (c :: body) }
  | .number part text =>
    match numberPart? part c with
    | some (some part') => .next { r with mode := .number part' (c :: text) }
    | some none => .refused
    | none =>
      match complete (numberValue text) r.frames r.depth with
      | some r' => if isSpace c then .next r' else r'.afterValue c
      | none => .ended (numberValue text)
  | .word missing meaning =>
    match missing with
    | [] => .refused
    | [w] => if c = w then finish meaning r.frames r.depth else .refused
    | w :: more => if c = w then .next { r with mode := .word more meaning } else .refused

/-- Reads on from a state. -/
def run (r : Reader) : List Char → Outcome
  | [] =>
    match r.mode, r.frames with
    | .number part text, [] => if mayEnd part then .value (numberValue text) [] else .incomplete
    | _, _ => .incomplete
  | c :: rest =>
    match r.step c with
    | .next r' => run r' rest
    | .done v => .value v rest
    | .ended v => .value v (c :: rest)
    | .refused => .fault r.mode (c :: rest)

end Reader

/-- The first value of a text. -/
def readFirst (cs : List Char) : Outcome := Reader.start.run cs

/-- The value that a whole text is. -/
def read? (cs : List Char) : Option Json :=
  match readFirst cs with
  | .value v rest => if rest.all isSpace then some v else none
  | _ => none

end BinFleet.Json
