import BinFleet.Text.Blank

namespace BinFleet.Text.Table

open Utf8 (Symbol)

/-- Blanks after the widest cell of a column. -/
def gap : Nat := 2

/-- The octet that starts and ends what is taken as it is. -/
def mark : Symbol := .stray 0xff

/-- The cells of a line that a tabulator ends, and the text after the last one. -/
structure Row where
  cells : List (List Symbol)
  trailing : List Symbol
  deriving DecidableEq, Repr

/-- A cell is as wide as its symbols; marks take no place. -/
def cellWidth (cell : List Symbol) : Nat := cell.countP (· ≠ mark)

namespace Row

def width (r : Row) (column : Nat) : Nat := ((r.cells[column]?).map cellWidth).getD 0

def reaches (r : Row) (column : Nat) : Bool := column < r.cells.length

/-- The cells padded as the widths of the columns say, then the rest. -/
def render (widths : List Nat) (r : Row) : List Symbol :=
  ((r.cells.zip widths).flatMap fun (cell, w) =>
    cell ++ List.replicate (w - cellWidth cell) (.char ' ')) ++ r.trailing

end Row

/-- A text that is being cut into blocks of rows. All lists stand last item first. -/
structure Scan where
  marked : Bool := false
  cell : List Symbol := []
  cells : List (List Symbol) := []
  rows : List Row := []
  blocks : List (List Row) := []

namespace Scan

def endCell (s : Scan) : Scan := { s with cell := [], cells := s.cell.reverse :: s.cells }

def endRow (s : Scan) : Scan :=
  { s with cell := [], cells := [], rows := ⟨s.cells.reverse, s.cell.reverse⟩ :: s.rows }

def endBlock (s : Scan) : Scan := { s with rows := [], blocks := s.rows.reverse :: s.blocks }

/-- A form feed ends a line and stops columns from running across it. -/
def step (s : Scan) (x : Symbol) : Scan :=
  let longer := { s with cell := x :: s.cell }
  if x = mark then { longer with marked := !s.marked }
  else if s.marked then longer
  else if x = .char '\t' ∨ x = .char '\x0b' then s.endCell
  else if x = .char '\n' then s.endRow
  else if x = .char '\x0c' then s.endRow.endBlock
  else longer

end Scan

/-- The rows of a text, in blocks that are aligned apart from each other. -/
def blocks (text : List Symbol) : List (List Row) :=
  (text.foldl Scan.step {}).endRow.endBlock.blocks.reverse

/-- The rows next to a place that reach a column. -/
def run (column : Nat) (rows : List Row) : List Row := rows.takeWhile (·.reaches column)

/-- The width of a column around one row: the widest cell of the rows above and below that reach it
without interruption, and the gap. -/
def columnWidth (above : List Row) (row : Row) (below : List Row) (column : Nat) : Nat :=
  ((run column above ++ row :: run column below).map (·.width column)).foldl max 0 + gap

def renderRows (above : List Row) : List Row → List (List Symbol)
  | [] => []
  | row :: below =>
    let widths := (List.range row.cells.length).map (columnWidth above row below)
    row.render widths :: renderRows (row :: above) below

/-- Cells that stand above each other in neighbouring lines are padded to one width; what follows the last
tabulator of a line is never padded. -/
def align (text : Octets) : Octets :=
  let rows := (blocks (Utf8.symbols text)).flatMap (renderRows [])
  Utf8.ofSymbols ([Symbol.char '\n'].intercalate rows)

end BinFleet.Text.Table
