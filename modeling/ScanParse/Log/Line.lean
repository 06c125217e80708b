import ScanParse.Log.Record
import ScanParse.Text.Quoted
import ScanParse.Text.Style

namespace ScanParse

open ScanParse.Text

def Severity.style : Severity → Style
  | trace => .magenta
  | debug => .blue
  | info => .green
  | warn => .yellow
  | error => .red

def FieldValue.toText : FieldValue → String
  | number value => toString value
  | plain content => content
  | quoted content => quotedText content

/-- A record as a line, with its end: time, severity, origin, message and fields. -/
def LogRecord.line (color : Bool) (time : String) (record : LogRecord) : String :=
  let severity := padLeft 5 record.severity.name
  let field (entry : String × FieldValue) : String :=
    " " ++ styled color .italic entry.1 ++ styled color .dim "=" ++ entry.2.toText
  styled color .dim time ++ " " ++ styled color record.severity.style severity ++ " " ++
    styled color .dim record.target ++ styled color .dim ":" ++ " " ++ record.message ++
    String.join (record.fields.map field) ++ "\n"

end ScanParse
