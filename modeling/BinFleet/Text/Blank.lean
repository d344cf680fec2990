import BinFleet.Text.Utf8

namespace BinFleet.Text

def isBlank (c : Char) : Bool :=
  c ∈ ['\t', '\n', '\x0b', '\x0c', '\r', ' ', '\u0085', '\u00a0', '\u1680', '\u2028', '\u2029',
    '\u202f', '\u205f', '\u3000'] || ('\u2000' ≤ c && c ≤ '\u200a')

def trimLeftChars (cs : List Char) : List Char := cs.dropWhile isBlank

def trimRightChars (cs : List Char) : List Char := (cs.reverse.dropWhile isBlank).reverse

def trimChars (cs : List Char) : List Char := trimRightChars (trimLeftChars cs)

def trim (s : String) : String := String.ofList (trimChars s.toList)

/-- The pieces between the occurrences of a mark; there is always one more than marks. -/
def splitList {α : Type} [DecidableEq α] (mark : α) (xs : List α) : List (List α) :=
  xs.foldr
    (fun x pieces =>
      if x = mark then [] :: pieces
      else
        match pieces with
        | piece :: rest => (x :: piece) :: rest
        | [] => [[x]])
    [[]]

/-- What stands before and after the first occurrence of a mark. -/
def cut? {α : Type} [DecidableEq α] (mark : α) (xs : List α) : Option (List α × List α) :=
  match xs.dropWhile (· ≠ mark) with
  | _ :: rest => some (xs.takeWhile (· ≠ mark), rest)
  | [] => none

def cutAtInto {α : Type} [BEq α] (mark : List α) (found : List α) : List α → Option (List α × List α)
  | [] => if mark.isEmpty then some (found.reverse, []) else none
  | x :: rest =>
    if mark.isPrefixOf (x :: rest) then some (found.reverse, (x :: rest).drop mark.length)
    else cutAtInto mark (x :: found) rest

/-- What stands before and after the first occurrence of a mark of several characters. -/
def cutAt? {α : Type} [BEq α] (mark xs : List α) : Option (List α × List α) := cutAtInto mark [] xs

/-- Without the items at both ends that a test accepts. -/
def stripWhere {α : Type} (drop : α → Bool) (xs : List α) : List α :=
  ((xs.dropWhile drop).reverse.dropWhile drop).reverse

/-- Without blanks at both ends; octets that stand alone are no blanks. -/
def trimSymbols (xs : List Utf8.Symbol) : List Utf8.Symbol :=
  stripWhere (fun x => !x.isStray && isBlank x.toChar) xs

def eachAfter (mark : List Char) (f : List Char → List Char) (rest : List (List Char)) : List Char :=
  rest.flatMap fun piece => mark ++ f piece

/-- Changes what follows each occurrence of a mark, up to the next one. -/
def mapAfter (s mark : String) (f : List Char → List Char) : String :=
  match s.splitOn mark with
  | [] => s
  | first :: rest => first ++ String.ofList (eachAfter mark.toList f (rest.map String.toList))

def joinWith (separator : String) (parts : List String) : String := separator.intercalate parts

end BinFleet.Text
