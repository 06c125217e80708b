namespace ScanParse

/-- How much a log record matters, the least first. -/
inductive Severity where
  | trace
  | debug
  | info
  | warn
  | error
deriving DecidableEq, Repr

namespace Severity

def rank : Severity → Nat
  | trace => 0
  | debug => 1
  | info => 2
  | warn => 3
  | error => 4

def name : Severity → String
  | trace => "TRACE"
  | debug => "DEBUG"
  | info => "INFO"
  | warn => "WARN"
  | error => "ERROR"

end Severity

/-- The content of a field of a log record. -/
inductive FieldValue where
  | number (value : Nat)
  /-- A text that is shown as it is. -/
  | plain (content : String)
  /-- A text that is shown between quotes. -/
  | quoted (content : String)
deriving DecidableEq, Repr

/-- A log record: how much it matters, where it comes from, and what it says. -/
structure LogRecord where
  severity : Severity
  target : String
  message : String
  fields : List (String × FieldValue)
deriving DecidableEq, Repr

end ScanParse
