namespace ScanParse.Text

def spaces (count : Nat) : String :=
  String.ofList (List.replicate count ' ')

/-- A text followed by spaces up to the given width. -/
def padRight (width : Nat) (content : String) : String :=
  content ++ spaces (width - content.length)

/-- A text behind spaces up to the given width. -/
def padLeft (width : Nat) (content : String) : String :=
  spaces (width - content.length) ++ content

end ScanParse.Text
