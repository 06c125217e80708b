import ScanParse.Command.Directory
import ScanParse.Command.Messages
import ScanParse.Listing
import ScanParse.Log.Filter
import ScanParse.Log.Line
import ScanParse.Report
import ScanParse.Scan.Basic

namespace ScanParse

open ScanParse.Text

abbrev Environment : Type :=
  String → Option String

structure Colors where
  /-- In listings, in reports, and in messages about files. -/
  listing : Bool
  /-- In messages about the command line itself. -/
  messages : Bool
  log : Bool
deriving DecidableEq, Repr

namespace Environment

/-- A variable is set, and not to nothing. -/
def isSet (environment : Environment) (name : String) : Bool :=
  match environment name with
  | none => false
  | some value => value != ""

/-- Colours are asked for although nothing is written to a terminal. -/
def forcesColor (environment : Environment) : Bool :=
  match environment "CLICOLOR_FORCE" with
  | none => false
  | some value => value != "0"

/-- The colours in use when nothing is written to a terminal. Listings follow the demand alone;
messages follow any demand that is not empty, a zero included, but colours can be refused there. -/
def colors (environment : Environment) : Colors :=
  let refused := environment.isSet "NO_COLOR"
  ⟨environment.forcesColor, environment.isSet "CLICOLOR_FORCE" && !refused, !refused⟩

/-- The log filter of the environment; where it has none that can be read, the verbosity decides. -/
def logFilter (environment : Environment) (verbosity : Nat) : LogFilter :=
  let byVerbosity : Severity := match verbosity with
    | 0 => .warn
    | 1 => .debug
    | _ => .trace
  ((environment "RUST_LOG").bind LogFilter.ofText?).getD (.ofThreshold (some byVerbosity))

end Environment

namespace Command

/-- What a command leaves: its exit code and what it wrote. -/
structure Outcome where
  exit : Nat
  output : String
  errors : String
deriving DecidableEq, Repr

/-- A command that has still to read its file. -/
structure Pending where
  arguments : Arguments
  colors : Colors
  filter : LogFilter
  /-- What stands for the time in log lines. -/
  time : String

/-- What makes a request of the words of a command line. -/
abbrev Reader : Type :=
  List String → Except ArgumentError Request

/-- Reads the arguments; what is left needs the file. -/
def startWith (read : Reader) (environment : Environment) (time : String) (words : List String) :
    Outcome ⊕ Pending :=
  let colors := environment.colors
  match read words with
  | .error cause => .inl ⟨2, "", Messages.textOf colors.messages (Messages.error cause)⟩
  | .ok .showHelp => .inl ⟨0, Messages.textOf colors.messages Messages.help, ""⟩
  | .ok .showVersion => .inl ⟨0, Messages.textOf colors.messages Messages.version, ""⟩
  | .ok (.list arguments) =>
      .inr ⟨arguments, colors, environment.logFilter arguments.verbosity, time⟩

@[inherit_doc startWith] def start : Environment → String → List String → Outcome ⊕ Pending :=
  startWith Arguments.read

/-- The last line of a command that failed. -/
def failureLine : String :=
  "Error: ()\n"

namespace Pending

/-- The lines of the records that pass the filter. -/
def logText (pending : Pending) (records : List LogRecord) : String :=
  String.join ((records.filter pending.filter.passes).map
    (LogRecord.line pending.colors.log pending.time))

def unreadable (pending : Pending) (cause : ReadError) : Outcome :=
  let color := pending.colors.listing
  ⟨1, "", styled color (.both .bold .red) "error:" ++ " cannot read '" ++
    styledField color .bold 0 pending.arguments.file ++ "': " ++ cause.message ++ "\n" ++
    failureLine⟩

/-- The record about the start of a scan. -/
def beginning (pending : Pending) (source : String) : LogRecord :=
  ⟨.info, "lexcomb", "tokenizing",
    [("file", .plain pending.arguments.file), ("chars", .number source.length)]⟩

/-- Scans the text of the file: all tokens are listed, or none. -/
def scanned (pending : Pending) (source : String) : Outcome :=
  let arguments := pending.arguments
  let scan := Scan.ofSource ⟨arguments.identifierDigits⟩ source
  let log := pending.logText (pending.beginning source :: scan.events.map ScanEvent.logRecord)
  match scan.outcome with
  | .ok tokens =>
      let listing : Listing :=
        ⟨tokens, arguments.positions, arguments.skipWhitespace, pending.colors.listing⟩
      ⟨0, listing.toText ++ "\n", log⟩
  | .error failure =>
      let report := Report.ofFailure arguments.file source failure
      ⟨1, "", log ++ report.toText pending.colors.listing ++ failureLine⟩

/-- Goes on with what reading the file gave. -/
def finish (pending : Pending) (content : Except ReadError ByteArray) : Outcome :=
  match content.bind textOfBytes with
  | .error cause => pending.unreadable cause
  | .ok source => pending.scanned source

end Pending

/-- Runs a command in a directory. -/
def runWith (read : Reader) (environment : Environment) (time : String) (directory : Directory)
    (words : List String) : Outcome :=
  match startWith read environment time words with
  | .inl outcome => outcome
  | .inr pending => pending.finish (directory.read pending.arguments.file)

@[inherit_doc runWith] def run : Environment → String → Directory → List String → Outcome :=
  runWith Arguments.read

end Command

end ScanParse
