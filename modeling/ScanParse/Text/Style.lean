import ScanParse.Text.Padding

namespace ScanParse.Text

inductive Style where
  | bold
  | dim
  | italic
  | underline
  | red
  | green
  | yellow
  | blue
  | magenta
  | cyan
  /-- An entry of the palette of 256 colours. -/
  | palette (index : Nat)
  /-- Two styles that are switched on by one control sequence. -/
  | both (first second : Style)

/-- The parameters of the control sequence that switches a style on. -/
def Style.parameters : Style → String
  | bold => "1"
  | dim => "2"
  | italic => "3"
  | underline => "4"
  | red => "31"
  | green => "32"
  | yellow => "33"
  | blue => "34"
  | magenta => "35"
  | cyan => "36"
  | palette index => "38;5;" ++ toString index
  | both first second => first.parameters ++ ";" ++ second.parameters

/-- The control sequence with the given parameters. -/
def control (parameters : String) : String :=
  "\x1b[" ++ parameters ++ "m"

/-- The control sequence that switches a style on. -/
def Style.opening (style : Style) : String :=
  control style.parameters

/-- The control sequence that switches every style off. -/
def closing : String :=
  control "0"

/-- A text in a style, if styles are in use; an empty text is styled as well. -/
def styled (inUse : Bool) (style : Style) (content : String) : String :=
  if inUse then style.opening ++ content ++ closing else content

/-- A padded text in a style, if styles are in use. Where the text itself switches styles off, the
style is switched on again. -/
def styledField (inUse : Bool) (style : Style) (width : Nat) (content : String) : String :=
  if inUse then
    let reopened := (closing ++ style.opening).intercalate (content.splitOn closing)
    styled true style (padRight width reopened)
  else padRight width content

/-- A piece of text, with the styles it is shown in. -/
structure Piece where
  styles : List Style
  content : String

def bare (content : String) : Piece :=
  ⟨[], content⟩

def Piece.toText (inUse : Bool) (piece : Piece) : String :=
  if inUse ∧ ¬ piece.styles.isEmpty then
    String.join (piece.styles.map Style.opening) ++ piece.content ++ closing
  else piece.content

/-- The text of pieces, one after the other. -/
def Piece.textOf (inUse : Bool) (pieces : List Piece) : String :=
  String.join (pieces.map (toText inUse))

end ScanParse.Text
