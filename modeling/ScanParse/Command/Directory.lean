namespace ScanParse

inductive ReadError where
  | notFound
  | notDirectory
  | isDirectory
  | nameTooLong
  | notText
  /-- Any other cause, with what the system says about it. -/
  | other (message : String)
deriving DecidableEq, Repr

def ReadError.message : ReadError → String
  | notFound => "No such file or directory (os error 2)"
  | notDirectory => "Not a directory (os error 20)"
  | isDirectory => "Is a directory (os error 21)"
  | nameTooLong => "File name too long (os error 36)"
  | notText => "stream did not contain valid UTF-8"
  | other message => message

def textOfBytes (bytes : ByteArray) : Except ReadError String :=
  match String.fromUTF8? bytes with
  | some text => .ok text
  | none => .error .notText

inductive DirectoryEntry where
  | file (bytes : ByteArray)
  | directory

/-- Entries of a directory, each by the names of its path. -/
abbrev Entries : Type :=
  List (List String × DirectoryEntry)

/-- What stands at a list of names, if it is known. The directory itself, and every beginning of a
path, is a directory. -/
def Entries.entry? (entries : Entries) (names : List String) : Option DirectoryEntry :=
  match entries.lookup names with
  | some entry => some entry
  | none =>
      if names.isEmpty ∨ entries.any (fun entry => names.isPrefixOf entry.1) then some .directory
      else none

/-- The directory that a command works in: what it holds, where it stands, and what is known of the
other directories. -/
structure Directory where
  entries : Entries
  /-- The names from the directory up to the root. -/
  place : List String
  /-- What is known from the root on. -/
  root : Entries

namespace Directory

/-- The pieces of a text between its slashes. -/
def betweenSlashes : List Char → List (List Char)
  | [] => [[]]
  | '/' :: rest => [] :: betweenSlashes rest
  | c :: rest =>
      match betweenSlashes rest with
      | [] => [[c]]
      | piece :: pieces => (c :: piece) :: pieces

/-- The names of a path between its slashes. -/
def pathNames (path : String) : List String :=
  (betweenSlashes path.toList).map String.ofList

/-- The names of a path that lead downwards. -/
def downwards (path : String) : List String :=
  (pathNames path).filter fun name => name != "" && name != "."

def entriesOf (entries : List (String × DirectoryEntry)) : Entries :=
  entries.map fun (path, entry) => (downwards path, entry)

/-- The directory at a path from the root, with the given entries, and with others from the root
on. -/
def ofEntries (entries : List (String × DirectoryEntry)) (place : String)
    (root : List (String × DirectoryEntry)) : Directory :=
  ⟨entriesOf entries, (downwards place).reverse, (downwards place, .directory) :: entriesOf root⟩

/-- The most bytes that a name and a path may have. -/
def maxName : Nat := 255

@[inherit_doc maxName] def maxPath : Nat := 4095

/-- Where a path has led to so far: names below the root or below the directory that a command
works in, last name first. -/
inductive Here where
  | root (names : List String)
  | inside (names : List String)

/-- The place of a name in a directory. -/
def child (directory : Directory) (name : String) : Here → Here
  | .root names =>
      if name :: names = directory.place then .inside [] else .root (name :: names)
  | .inside names => .inside (name :: names)

/-- The directory that holds a place. The root holds itself. -/
def parent (directory : Directory) : Here → Here
  | .root names => .root names.tail
  | .inside [] => .root directory.place.tail
  | .inside (_ :: names) => .inside names

def entry? (directory : Directory) : Here → Option DirectoryEntry
  | .root names => directory.root.entry? names.reverse
  | .inside names => directory.entries.entry? names.reverse

def follow (directory : Directory) (here : Here) (entry : DirectoryEntry) :
    List String → Except ReadError DirectoryEntry
  | [] => .ok entry
  | name :: names =>
      match entry with
      | .file _ => .error .notDirectory
      | .directory =>
          if name = "" ∨ name = "." then directory.follow here entry names
          else if name = ".." then directory.follow (directory.parent here) .directory names
          else if maxName < name.utf8ByteSize then .error .nameTooLong
          else
            match directory.entry? (directory.child name here) with
            | none => .error .notFound
            | some entry => directory.follow (directory.child name here) entry names

/-- The bytes of the file at a path. -/
def read (directory : Directory) (path : String) : Except ReadError ByteArray :=
  if maxPath < path.utf8ByteSize then .error .nameTooLong
  else
    let start : Here := if path.startsWith "/" then .root [] else .inside []
    match directory.follow start .directory (pathNames path) with
    | .error cause => .error cause
    | .ok .directory => .error .isDirectory
    | .ok (.file bytes) => .ok bytes

end Directory

end ScanParse
