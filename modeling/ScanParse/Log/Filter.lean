import ScanParse.Binary64.Read
import ScanParse.Log.Record
import ScanParse.Pattern.Valid
import ScanParse.Text.Bytes

/-!
Which log records are written. A filter is a list of directives; each sets the least severity for
the records whose target it begins and whose fields it names. Of several directives for a record
the most specific one counts.
-/

namespace ScanParse

open ScanParse.Text

/-- The least severity that passes; without one, nothing passes. -/
abbrev Threshold : Type :=
  Option Severity

namespace Threshold

/-- A record of the given severity passes. -/
def passes (threshold : Threshold) (severity : Severity) : Bool :=
  match threshold with
  | none => false
  | some least => least.rank ≤ severity.rank

/-- The threshold of a number from zero, for nothing, to five, for everything. -/
def ofNumber? : Nat → Option Threshold
  | 0 => some none
  | 1 => some (some .error)
  | 2 => some (some .warn)
  | 3 => some (some .info)
  | 4 => some (some .debug)
  | 5 => some (some .trace)
  | _ => none

/-- The threshold of a name, in letters of either case. -/
def ofName? (name : String) : Option Threshold :=
  match String.ofList (name.toList.map Char.toLower) with
  | "off" => some none
  | "error" => some (some .error)
  | "warn" => some (some .warn)
  | "info" => some (some .info)
  | "debug" => some (some .debug)
  | "trace" => some (some .trace)
  | _ => none

/-- The threshold that a text spells, as a number or by name. -/
def ofText? (cs : List Char) : Option Threshold :=
  let digits := match cs with
    | '+' :: rest => rest
    | _ => cs
  if ¬ digits.isEmpty ∧ digits.all Char.isDigit then ofNumber? (digitsValue digits)
  else ofName? (String.ofList cs)

end Threshold

structure Directive where
  /-- What the target of a record has to begin with. -/
  target : Option String
  /-- The rule is bound to a surrounding activity, or to the content of a field. -/
  bound : Bool
  /-- The fields that a record must have. -/
  fields : List String
  threshold : Threshold
deriving DecidableEq, Repr

namespace Directive

def everything : Directive :=
  ⟨none, false, [], some .trace⟩

/-- A text without blanks at its ends. -/
def trimmed (cs : List Char) : List Char :=
  ((cs.dropWhile isBlank).reverse.dropWhile isBlank).reverse

/-- A character that a target or the name of a threshold can begin with. -/
def begins (c : Char) : Bool :=
  c == '-' || c == ':' || c == '_' || isAlphanumeric c

/-- A content that a field can be asked for: a number or a pattern. -/
def isContent (cs : List Char) : Bool :=
  (Binary64.ofText? (String.ofList cs)).isSome || Pattern.isValid cs

/-- What the reading of a rule is in, and the place where that begins. -/
inductive Section where
  | front
  /-- A target, or a threshold that stands alone. -/
  | name
  /-- The activity behind a square bracket. -/
  | activity (start : Nat)
  /-- The field behind a brace. -/
  | field (start : Nat)
  /-- Behind the field. -/
  | fieldEnd
  /-- Behind the closing square bracket. -/
  | bracketEnd
  /-- The threshold behind an equals sign. -/
  | threshold (start : Nat)
deriving DecidableEq, Repr

/-- What has been read of a rule. -/
structure Progress where
  directive : Directive
  current : Section
deriving DecidableEq, Repr

/-- Asks for a field: a name alone, or a name and a content behind an equals sign. What stands
behind a second equals sign counts for nothing. -/
def withField? (directive : Directive) (field : List Char) : Option Directive :=
  match field, field.splitOn '=' with
  | [], _ => none
  | _, [] => none
  | _, [name] => some { directive with fields := [String.ofList name] }
  | _, name :: content :: _ =>
      if isContent content then
        some { directive with fields := [String.ofList name], bound := true }
      else none

/-- Reads the character at a place. Places count the bytes behind the blanks in front of the rule,
but pieces are cut from `whole`, which has these blanks. -/
def step? (whole : List Char) (progress : Progress) (place : Nat) (c : Char) :
    Option Progress :=
  let directive := progress.directive
  let piece? (start : Nat) : Option (List Char) := cutBytes? start place whole
  match progress.current with
  | .front =>
      if c = '[' then some ⟨directive, .activity (place + 1)⟩
      else if begins c then some ⟨directive, .name⟩
      else none
  | .name =>
      if c = '=' ∨ c = '[' then
        (piece? 0).map fun target =>
          ⟨{ directive with target := some (String.ofList target) },
            if c = '=' then .threshold (place + 1) else .activity (place + 1)⟩
      else some progress
  | .activity start =>
      if c = ']' then (piece? start).map fun _ => ⟨{ directive with bound := true }, .bracketEnd⟩
      else if c = '\x7b' then
        (piece? start).map fun activity =>
          ⟨{ directive with bound := !activity.isEmpty }, .field (place + 1)⟩
      else some progress
  | .field start =>
      if c = '\x7d' then do
        let directive ← directive.withField? (← piece? start)
        return ⟨directive, .fieldEnd⟩
      else some progress
  | .fieldEnd => if c = ']' then some ⟨directive, .bracketEnd⟩ else none
  | .bracketEnd => if c = '=' then some ⟨directive, .threshold (place + 1)⟩ else none
  | .threshold _ => some progress

def readFrom? (whole : List Char) (progress : Progress) (place : Nat) :
    List Char → Option Progress
  | [] => some progress
  | c :: rest =>
      match step? whole progress place c with
      | none => none
      | some progress => readFrom? whole progress (place + c.utf8Size) rest

/-- The rule behind whose last character the reading stands. -/
def finish? (whole : List Char) (progress : Progress) : Option Directive :=
  let directive := progress.directive
  match progress.current with
  | .name =>
      match Threshold.ofText? whole with
      | some threshold => some { directive with threshold }
      | none => some { directive with target := some (String.ofList whole) }
  | .threshold start =>
      match dropBytes? start whole with
      | none => none
      | some [] => some directive
      | some level => (Threshold.ofText? level).map fun threshold => { directive with threshold }
  | .bracketEnd => some directive
  | _ => none

/-- The rule that a text spells: a threshold alone, or a target, an activity and a field in
brackets, and a threshold behind an equals sign, each of which can be missing. -/
def ofText? (whole : List Char) : Option Directive :=
  (readFrom? whole ⟨everything, .front⟩ 0 (trimmed whole)).bind (finish? whole)

/-- The names of the fields that a record has; its message is one of them. -/
def fieldsOf (record : LogRecord) : List String :=
  "message" :: record.fields.map Prod.fst

def concerns (directive : Directive) (record : LogRecord) : Bool :=
  let begun := match directive.target with
    | none => true
    | some target => target.toList.isPrefixOf record.target.toList
  !directive.bound && begun &&
    directive.fields.all fun name => (fieldsOf record).contains name

/-- How specific a rule is: by its target, then by its fields. -/
def specificity (directive : Directive) : Nat × Nat :=
  (match directive.target with
    | none => 0
    | some target => target.utf8ByteSize + 1,
    directive.fields.length)

/-- A later rule that is as specific as an earlier one replaces it. -/
def replaces (later earlier : Directive) : Bool :=
  let (target, fields) := later.specificity
  let (target', fields') := earlier.specificity
  target' < target ||
    (target' == target &&
      (fields' < fields || (fields' == fields && !(later.fields < earlier.fields))))

end Directive

structure LogFilter where
  directives : List Directive

namespace LogFilter

/-- The filter with one threshold for everything. -/
def ofThreshold (threshold : Threshold) : LogFilter :=
  ⟨[⟨none, false, [], threshold⟩]⟩

/-- The filter that a text spells: directives between commas, empty ones left out. Without any,
only errors pass; one that cannot be read spoils the whole. -/
def ofText? (text : String) : Option LogFilter := do
  let parts := (text.toList.splitOn ',').filter fun part => !part.isEmpty
  let directives ← parts.mapM Directive.ofText?
  return if directives.isEmpty then ofThreshold (some .error) else ⟨directives⟩

/-- The directive that counts for a record. -/
def directive? (filter : LogFilter) (record : LogRecord) : Option Directive :=
  (filter.directives.filter (·.concerns record)).foldl
    (fun best directive =>
      match best with
      | none => some directive
      | some earlier => if directive.replaces earlier then some directive else best)
    none

def passes (filter : LogFilter) (record : LogRecord) : Bool :=
  match filter.directive? record with
  | none => false
  | some directive => directive.threshold.passes record.severity

end LogFilter

end ScanParse
