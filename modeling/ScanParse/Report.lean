import ScanParse.Scan.Event
import ScanParse.Text.Blank
import ScanParse.Text.Cells
import ScanParse.Text.Style

namespace ScanParse

open ScanParse.Text

/-- What a report is about: the name of a file, its content, and the character at an offset. -/
structure Report where
  file : String
  source : String
  offset : Nat
  found : Char

namespace Report

def endsLine (c : Char) : Bool :=
  c == '\n' || c == '\r' || c == '\x0b' || c == '\x0c' || c == '\u0085' || c == '\u2028' ||
    c == '\u2029'

/-- The lines of a source, each with its end. A line end at the very end opens no line. -/
def splitLines : List Char → List (List Char)
  | [] => []
  | '\r' :: '\n' :: rest => ['\r', '\n'] :: splitLines rest
  | c :: rest =>
      if endsLine c then [c] :: splitLines rest
      else
        match splitLines rest with
        | [] => [[c]]
        | line :: lines => (c :: line) :: lines

/-- The place of a character: its line, from zero, its column, from zero, and the text of that line
without blanks at the end. -/
structure Place where
  line : Nat
  column : Nat
  text : List Char

/-- A line without blanks at the end. -/
def trimmed (line : List Char) : List Char :=
  (line.reverse.dropWhile isBlank).reverse

/-- The place of an offset among lines that are counted from `first`. The offset behind the last
character belongs to the last line. -/
def placeAmong (first offset : Nat) : List (List Char) → Option Place
  | [] => none
  | line :: lines =>
      if offset < line.length ∨ (lines.isEmpty ∧ offset = line.length) then
        some ⟨first, offset, trimmed line⟩
      else placeAmong (first + 1) (offset - line.length) lines

/-- The place that a report is about, if the source has it. -/
def place? (report : Report) : Option Place :=
  placeAmong 0 report.offset (splitLines report.source.toList)

/-- The cells of a character in a column; tabs reach to the next multiple of four columns. -/
def cellsAt (column : Nat) (c : Char) : Nat :=
  if c = '\t' then (column / 4 + 1) * 4 - column
  else if isBlank c then 1
  else cells c

/-- The cells of a column of the line; one behind its end. -/
def Place.cells (place : Place) (column : Nat) : Nat :=
  match place.text[column]? with
  | some c => cellsAt column c
  | none => 1

/-- A run of spaces without a style. -/
def blanks (count : Nat) : Piece :=
  bare (spaces count)

def frame (content : String) : Piece :=
  ⟨[.palette 246], content⟩

/-- A piece of the frame beside lines that are not in the source. -/
def faintFrame (content : String) : Piece :=
  ⟨[.palette 240], content⟩

/-- A piece of the arrow, or the character that it points at. -/
def mark (content : String) : Piece :=
  ⟨[.red], content⟩

/-- The characters of the line, blanks as spaces, the one in question marked. -/
def Place.textPieces (place : Place) : List Piece :=
  place.text.zipIdx.flatMap fun (c, column) =>
    let styles := [if column = place.column then .red else .palette 249]
    if isBlank c then List.replicate (cellsAt column c) ⟨styles, " "⟩
    else [⟨styles, c.toString⟩]

/-- As many cells as a column has: a first piece, and another one repeated. -/
def Place.fill (place : Place) (column : Nat) (first other : Piece) : List Piece :=
  match place.cells column with
  | 0 => []
  | count + 1 => first :: List.replicate count other

/-- The start of the arrow, below the character. -/
def Place.arrow (place : Place) : List Piece :=
  (List.range (place.column + 3)).flatMap fun column =>
    if column = place.column then place.fill column (mark "┬") (mark "─")
    else place.fill column (blanks 1) (blanks 1)

/-- The rest of the arrow, up to the message. -/
def Place.arm (place : Place) : List Piece :=
  (List.range (place.column + 3)).flatMap fun column =>
    if column < place.column then place.fill column (blanks 1) (blanks 1)
    else if column = place.column then place.fill column (mark "╰") (mark "─")
    else place.fill column (mark "─") (mark "─")

def Place.pieces (place : Place) (file : String) (atEnd : Bool) (message : String) :
    List (List Piece) :=
  let number := toString (place.line + 1)
  let margin := blanks (number.length + 2)
  let beside := [blanks 1, faintFrame (spaces (number.length + 1) ++ "│"), blanks 1]
  let location := file ++ ":" ++ number ++ ":" ++ toString (place.column + 1)
  let head := [
    [margin, frame "╭", frame "─", frame "[", bare location, frame "]"],
    [margin, frame "│"]]
  let body :=
    if atEnd then [[margin, frame "│", blanks 1]]
    else [
      [blanks 1, frame (number ++ " │"), blanks 1] ++ place.textPieces,
      beside ++ place.arrow,
      beside ++ place.arm ++ [bare (" " ++ message)]]
  let foot := [
    [frame (String.ofList (List.replicate (number.length + 2) '─') ++ "╯")]]
  head ++ body ++ foot

def lines (report : Report) : List (List Piece) :=
  let title := [⟨[.red], "Error:"⟩, bare " unrecognized item"]
  let message := quotedChar report.found ++ " does not start any token"
  match report.place? with
  | none => [title]
  | some place =>
      title :: place.pieces report.file (report.offset == report.source.length) message

/-- The text of a report; every line has an end. -/
def toText (color : Bool) (report : Report) : String :=
  String.join (report.lines.map fun pieces => Piece.textOf color pieces ++ "\n")

def ofFailure (file source : String) (failure : Unrecognized) : Report :=
  ⟨file, source, failure.offset, failure.found⟩

end Report

end ScanParse
