namespace BinFleet

/-- Documents as they are written: numbers and strings keep their text, objects keep the order and the
repetitions of their keys. -/
inductive Json where
  | null
  | bool (b : Bool)
  /-- A number, as its digits stand. -/
  | number (text : String)
  /-- A string, as it stands between its quotes. -/
  | string (body : String)
  | array (items : List Json)
  | object (fields : List (String × Json))
  deriving Repr, Inhabited

namespace Json

def isContainer : Json → Bool
  | array _ => true
  | object _ => true
  | _ => false

def isNumber : Json → Bool
  | number _ => true
  | _ => false

mutual

/-- The document on one line, without blanks. -/
def render : Json → List Char
  | null => ['n', 'u', 'l', 'l']
  | bool true => ['t', 'r', 'u', 'e']
  | bool false => ['f', 'a', 'l', 's', 'e']
  | number text => text.toList
  | string body => '"' :: (body.toList ++ ['"'])
  | array items => '[' :: (renderItems items ++ [']'])
  | object fields => '\x7b' :: (renderFields fields ++ ['\x7d'])

def renderItems : List Json → List Char
  | [] => []
  | [j] => j.render
  | j :: rest => j.render ++ ',' :: renderItems rest

def renderFields : List (String × Json) → List Char
  | [] => []
  | [(k, v)] => '"' :: (k.toList ++ '"' :: ':' :: v.render)
  | (k, v) :: rest => '"' :: (k.toList ++ '"' :: ':' :: (v.render ++ ',' :: renderFields rest))

end

def compact (j : Json) : String := String.ofList j.render

/-- A line break and the indentation of a level. -/
def lineBreak (level : Nat) : List Char := '\n' :: List.replicate level '\t'

mutual

/-- One item a line, indented by tabs. -/
def renderIndented (level : Nat) : Json → List Char
  | array [] => ['[', ']']
  | array (j :: rest) => '[' :: (renderIndentedItems (level + 1) (j :: rest) ++ lineBreak level ++ [']'])
  | object [] => ['\x7b', '\x7d']
  | object (f :: rest) =>
    '\x7b' :: (renderIndentedFields (level + 1) (f :: rest) ++ lineBreak level ++ ['\x7d'])
  | j => j.render

def renderIndentedItems (level : Nat) : List Json → List Char
  | [] => []
  | [j] => lineBreak level ++ j.renderIndented level
  | j :: rest => lineBreak level ++ j.renderIndented level ++ ',' :: renderIndentedItems level rest

def renderIndentedFields (level : Nat) : List (String × Json) → List Char
  | [] => []
  | [(k, v)] => lineBreak level ++ '"' :: (k.toList ++ '"' :: ':' :: ' ' :: v.renderIndented level)
  | (k, v) :: rest =>
    lineBreak level ++ '"' :: (k.toList ++ '"' :: ':' :: ' ' :: v.renderIndented level) ++
      ',' :: renderIndentedFields level rest

end

def indented (j : Json) : String := String.ofList (j.renderIndented 0)

end Json

end BinFleet
