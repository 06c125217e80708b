import ScanParse.Command.Arguments
import ScanParse.Text.Plain
import ScanParse.Text.Style

namespace ScanParse

open ScanParse.Text

namespace Messages

/-- A word that is typed as it stands. -/
def literal (content : String) : Piece :=
  ⟨[.bold], content⟩

def heading (content : String) : Piece :=
  ⟨[.bold, .underline], content⟩

def valid (content : String) : Piece :=
  ⟨[.green], content⟩

def invalid (content : String) : Piece :=
  ⟨[.yellow], content⟩

def program : String :=
  "lexcomb"

/-- What stands for the name of the file. -/
def filePlaceholder : String :=
  "<FILE>"

/-- The mark of a switch that may be repeated. -/
def repetition (switch : Switch) : String :=
  if switch.repeats then "..." else ""

/-- A switch by its long name, with its mark. -/
def switchText (switch : Switch) : String :=
  "--" ++ switch.long ++ repetition switch

/-- The choice of all arguments that belong to a listing. -/
def choiceText : String :=
  "<" ++ "|".intercalate ("FILE" :: (Switch.all.filter (!·.asks)).map switchText) ++ ">"

def switchPieces (switches : List Switch) : List Piece :=
  switches.flatMap fun switch =>
    [bare " ", literal ("--" ++ switch.long), bare (repetition switch)]

def usageLine (usage : Usage) : List Piece :=
  let shown := match usage with
    | .general => [bare (" [OPTIONS] " ++ filePlaceholder)]
    | .inUse switches => switchPieces switches ++ [bare (" " ++ filePlaceholder)]
    | .choice switches => switchPieces switches ++ [bare (" " ++ choiceText)]
  [heading "Usage:", bare " ", literal program] ++ shown

def explanation : Switch → String
  | .identifierDigits => "Let identifiers continue with digits after the first letter"
  | .positions => "Print the range, line and columns of every token"
  | .skipWhitespace => "Leave space and tab tokens out of the listing"
  | .verbose => "Raise log verbosity (-v debug, -vv trace)"
  | .help => "Print help"
  | .version => "Print version"

def widest : Nat :=
  (Switch.all.map fun switch => (switchText switch).length).foldl max 0

/-- The line of a switch in the help text. -/
def switchLine (switch : Switch) : List Piece :=
  let names := match switch.short? with
    | some short => [literal ("-" ++ short.toString), bare ", "]
    | none => [bare (spaces 4)]
  let gap := spaces (widest + 2 - (switchText switch).length)
  [bare (spaces 2)] ++ names ++ [literal ("--" ++ switch.long),
    bare (repetition switch ++ gap ++ explanation switch ++ "\n")]

def help : List Piece :=
  usageLine .general ++
    [bare "\n\n", heading "Arguments:",
      bare ("\n  " ++ filePlaceholder ++ "  Specify the input file\n\n"),
      heading "Options:", bare "\n"] ++
    Switch.all.flatMap switchLine

def version : List Piece :=
  [bare (program ++ " 0.1.0\n")]

/-- A hint on a line of its own. -/
def tip (content : List Piece) : List Piece :=
  [bare "\n\n  ", valid "tip:", bare " "] ++ content

/-- The hint that a word that looks like a switch can be passed behind two dashes. -/
def passTip (word : String) : List Piece :=
  tip [bare "to pass '", invalid word, bare "' as a value, use '", valid ("-- " ++ word), bare "'"]

/-- The hint that another switch may have been meant. -/
def meantTip (switch : Switch) : List Piece :=
  tip [bare "a similar argument exists: '", valid ("--" ++ switch.long), bare "'"]

/-- What is wrong, with a hint where there is one. -/
def fault : ArgumentError → List Piece
  | .unknownLong name meant _ =>
      [bare "unexpected argument '", invalid ("--" ++ name), bare "' found"] ++
        match meant with
        | some switch => meantTip switch
        | none => passTip ("--" ++ name)
  | .unknownShort name =>
      let word := "-" ++ name.toString
      [bare "unexpected argument '", invalid word, bare "' found"] ++ passTip word
  | .unexpected word => [bare "unexpected argument '", invalid word, bare "' found"]
  | .repeated switch =>
      [bare "the argument '", invalid (switchText switch), bare "' cannot be used multiple times"]
  | .unneededValue switch value _ =>
      [bare "unexpected value '", invalid value, bare "' for '", literal (switchText switch),
        bare "' found; no more were expected"]
  | .emptyFile =>
      [bare "a value is required for '", invalid filePlaceholder, bare "' but none was supplied"]
  | .missingFile _ =>
      [bare "the following required arguments were not provided:\n  ", valid filePlaceholder]

/-- The usage that is shown with a fault; none with an empty name of a file. -/
def usage? : ArgumentError → Option Usage
  | .unknownLong _ _ usage => some usage
  | .unneededValue _ _ usage => some usage
  | .missingFile usage => some usage
  | .emptyFile => none
  | _ => some .general

/-- The whole message about arguments that cannot be followed. -/
def error (cause : ArgumentError) : List Piece :=
  let usage := match usage? cause with
    | some usage => bare "\n\n" :: usageLine usage
    | none => []
  [⟨[.bold, .red], "error:"⟩, bare " "] ++ fault cause ++ usage ++
    [bare "\n\nFor more information, try '", literal "--help", bare "'.\n"]

/-- The text of a message. Without colours all control sequences are left out, those in the quoted
arguments included. -/
def textOf (color : Bool) (pieces : List Piece) : String :=
  let content := Piece.textOf true pieces
  if color then content else plainText content

end Messages

end ScanParse
