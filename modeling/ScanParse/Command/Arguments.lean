import ScanParse.Command.Similarity

namespace ScanParse

inductive Switch where
  | identifierDigits
  | positions
  | skipWhitespace
  | verbose
  | help
  | version
deriving DecidableEq, Repr

namespace Switch

/-- All switches, in the order in which they are explained. -/
def all : List Switch :=
  [identifierDigits, positions, skipWhitespace, verbose, help, version]

def long : Switch → String
  | identifierDigits => "identifier-digits"
  | positions => "positions"
  | skipWhitespace => "skip-whitespace"
  | verbose => "verbose"
  | help => "help"
  | version => "version"

def short? : Switch → Option Char
  | identifierDigits => none
  | positions => some 'p'
  | skipWhitespace => none
  | verbose => some 'v'
  | help => some 'h'
  | version => some 'V'

def repeats : Switch → Bool
  | verbose => true
  | _ => false

/-- A switch that asks for a text instead of a listing. -/
def asks : Switch → Bool
  | help => true
  | version => true
  | _ => false

def ofLong? (name : String) : Option Switch :=
  all.find? fun switch => switch.long == name

def ofShort? (name : Char) : Option Switch :=
  all.find? fun switch => switch.short? == some name

/-- The switch that a misspelt long name may have meant. -/
def meant? (name : String) : Option Switch :=
  (Similarity.closest 0.7 name (all.map long)).bind ofLong?

end Switch

structure Arguments where
  file : String
  identifierDigits : Bool
  positions : Bool
  skipWhitespace : Bool
  verbosity : Nat
deriving DecidableEq, Repr

inductive Usage where
  /-- The general form. -/
  | general
  /-- The switches in use. -/
  | inUse (switches : List Switch)
  /-- Every argument that a listing can have, as a choice, behind the given switches. -/
  | choice (switches : List Switch)
deriving DecidableEq, Repr

/-- Why a command line cannot be followed. -/
inductive ArgumentError where
  /-- A long name that no switch has, and the switch that it may have meant. -/
  | unknownLong (name : String) (meant : Option Switch) (usage : Usage)
  | unknownShort (name : Char)
  /-- A second file. -/
  | unexpected (word : String)
  | repeated (switch : Switch)
  /-- A switch that was given a value. -/
  | unneededValue (switch : Switch) (value : String) (usage : Usage)
  /-- The name of the file is empty. -/
  | emptyFile
  | missingFile (usage : Usage)
deriving DecidableEq, Repr

inductive Request where
  | list (arguments : Arguments)
  | showHelp
  | showVersion
deriving DecidableEq, Repr

namespace Arguments

/-- What was read so far: the switches in the order of their use, how often `verbose` was used, and
the file. -/
structure Reading where
  used : List Switch
  verbosity : Nat
  file : Option String

/-- Why reading stops before the last word. -/
inductive Stop where
  | fault (cause : ArgumentError)
  | request (request : Request)

namespace Reading

def empty : Reading :=
  ⟨[], 0, none⟩

/-- The switches in use, one more counted in. -/
def usedWith (reading : Reading) (switch : Switch) : List Switch :=
  if reading.used.contains switch then reading.used else reading.used ++ [switch]

/-- The usage line after an unknown long name: general only if nothing was read at all. -/
def usage (reading : Reading) (meant : Option Switch) : Usage :=
  let switches := match meant with
    | some switch => reading.usedWith switch
    | none => reading.used
  if switches.isEmpty ∧ reading.file.isNone then .general else .inUse switches

/-- The usage line after a switch that was given a value. Behind an earlier switch it shows the
choice of all arguments that belong to a listing. -/
def usageOf (reading : Reading) (switch : Switch) : Usage :=
  if reading.used.isEmpty then .inUse [switch]
  else .choice (if switch.asks then [switch] else [])

/-- An empty name of a file is a fault once something else is done. -/
def checkFile (reading : Reading) : Except Stop Unit :=
  if reading.file = some "" then .error (.fault .emptyFile) else .ok ()

def use (reading : Reading) (switch : Switch) : Except Stop Reading := do
  reading.checkFile
  match switch with
  | .help => .error (.request .showHelp)
  | .version => .error (.request .showVersion)
  | .verbose =>
      return { reading with
        used := reading.used.filter (· != switch) ++ [switch]
        verbosity := reading.verbosity + 1 }
  | switch =>
      if reading.used.contains switch then .error (.fault (.repeated switch))
      else return { reading with used := reading.used ++ [switch] }

/-- Reads a word behind two dashes, with the value behind its first equals sign. -/
def long (reading : Reading) (word : List Char) : Except Stop Reading :=
  let name := String.ofList (word.takeWhile (· != '='))
  match Switch.ofLong? name, word.dropWhile (· != '=') with
  | some switch, [] => reading.use switch
  | some switch, _ :: value =>
      .error (.fault (.unneededValue switch (String.ofList value) (reading.usageOf switch)))
  | none, _ =>
      let meant := Switch.meant? name
      .error (.fault (.unknownLong name meant (reading.usage meant)))

def short (reading : Reading) : List Char → Except Stop Reading
  | [] => .ok reading
  | letter :: letters =>
      match Switch.ofShort? letter with
      | none => .error (.fault (.unknownShort letter))
      | some switch => do
          let reading ← reading.use switch
          reading.short letters

def positional (reading : Reading) (word : String) : Except Stop Reading :=
  match reading.file with
  | none => .ok { reading with file := some word }
  | some _ => .error (.fault (.unexpected word))

/-- Reads the words from left to right; behind two dashes alone every word names a file. -/
def words (reading : Reading) (dashes : Bool) : List String → Except Stop Reading
  | [] => .ok reading
  | word :: rest =>
      if dashes then do
        let reading ← reading.positional word
        reading.words true rest
      else
        match word.toList with
        | ['-', '-'] => reading.words true rest
        | '-' :: '-' :: name => do
            let reading ← reading.long name
            reading.words false rest
        | '-' :: letter :: letters => do
            let reading ← reading.short (letter :: letters)
            reading.words false rest
        | _ => do
            let reading ← reading.positional word
            reading.words false rest

/-- What was asked for, when all words are read. -/
def finish (reading : Reading) : Except Stop Arguments := do
  reading.checkFile
  match reading.file with
  | none => .error (.fault (.missingFile (.inUse reading.used)))
  | some file =>
      return ⟨file, reading.used.contains .identifierDigits, reading.used.contains .positions,
        reading.used.contains .skipWhitespace, reading.verbosity⟩

end Reading

def read (words : List String) : Except ArgumentError Request :=
  match (Reading.empty.words false words).bind Reading.finish with
  | .ok arguments => .ok (.list arguments)
  | .error (.request request) => .ok request
  | .error (.fault cause) => .error cause

end Arguments

end ScanParse
