import SpeechRom.CommandLine.Run

/-!
Runs on a folder of given files, with all output collected. The folder is the current directory of
the run, and nothing is known of what lies around it.
-/

namespace SpeechRom.CommandLine

/-- A folder of files with what a run has written: new contents of files, standard output and
messages, the latest first.
-/
structure Folder where
  files : List (String × Bytes) := []
  written : List (String × String) := []
  printed : List String := []
  reports : List String := []

namespace Folder

/-- The path of some parts. -/
def join (parts : List String) : String := String.intercalate "/" parts

/-- The contents of the file that some parts lead to. -/
def contents? (folder : Folder) (parts : List String) : Option Bytes :=
  match folder.written.lookup (join parts) with
  | some text => some text.toUTF8.data
  | none => folder.files.lookup (join parts)

/-- Whether some parts lead to a directory, which is there for the files in it. -/
def isDirectory (folder : Folder) (parts : List String) : Bool :=
  parts.isEmpty || folder.files.any fun file => (join parts ++ "/").toList.isPrefixOf file.1.toList

/-- A directory on the way of a path: one of the folder, by the names that lead to it, or one
around the folder.
-/
inductive Directory where
  | inside (parts : List String)
  | outside
deriving DecidableEq, Repr

/-- The directory that holds a directory. -/
def Directory.parent : Directory → Directory
  | inside [] => outside
  | inside parts => inside parts.dropLast
  | outside => outside

/-- The most bytes in the name of a file. -/
def maxNameSize : Nat := 255

/-- The most bytes in a path. -/
def maxPathSize : Nat := 4095

/-- What is wrong with a path in itself. -/
def pathFault? (path : String) : Option FileFault :=
  if path.toList.any fun c => c.toNat = 0 then some .nulInName
  else if path = "" then some .missing
  else if maxPathSize < path.utf8ByteSize then some .nameTooLong
  else none

/-- The names on a path, without the empty ones between slashes that follow each other. -/
def names (path : String) : List String :=
  ((Text.splitOn (· == '/') path.toList).map String.ofList).filter (· != "")

/-- The directory that a path starts from. -/
def start (path : String) : Directory :=
  if path.toList.head? == some '/' then .outside else .inside []

/-- Whether the last name of a path has a slash after it. -/
def endsInSlash (path : String) : Bool := path.toList.getLast? == some '/'

/-- What a name stands for in a directory. -/
inductive Entry where
  | directory (place : Directory)
  | file (bytes : Bytes)
  | vacant
deriving DecidableEq, Repr

/-- Looks a name up in a directory. Around the folder no name is in use. -/
def find (folder : Folder) (place : Directory) (name : String) : Except FileFault Entry :=
  if name = "." then .ok (.directory place)
  else if name = ".." then .ok (.directory place.parent)
  else if maxNameSize < name.utf8ByteSize then .error .nameTooLong
  else
    match place with
    | .outside => .ok .vacant
    | .inside parts =>
      let parts := parts ++ [name]
      if folder.isDirectory parts then .ok (.directory (.inside parts))
      else .ok (((folder.contents? parts).map Entry.file).getD .vacant)

/-- Goes on from a directory by a name, which has to be that of a directory too. -/
def enter (folder : Folder) (place : Directory) (name : String) : Except FileFault Directory := do
  match ← folder.find place name with
  | .directory next => return next
  | .file _ => throw .notDirectory
  | .vacant => throw .missing

/-- Follows a path up to its last name, one name after the other: the directory that is reached
and the last name, if the path has names.
-/
def follow (folder : Folder) (path : String) : Except FileFault (Directory × Option String) :=
  match pathFault? path with
  | some fault => .error fault
  | none => do
    let place ← (names path).dropLast.foldlM folder.enter (start path)
    return (place, (names path).getLast?)

/-- Reads a file. -/
def read (folder : Folder) (path : String) : Except FileFault Bytes := do
  match ← folder.follow path with
  | (_, none) => throw .isDirectory
  | (place, some name) =>
    match ← folder.find place name with
    | .directory _ => throw .isDirectory
    | .file bytes => if endsInSlash path then throw .notDirectory else return bytes
    | .vacant => throw .missing

/-- The folder with new contents of a file. What is put around the folder is out of its sight. -/
def put (folder : Folder) (place : Directory) (name text : String) : Folder :=
  match place with
  | .outside => folder
  | .inside parts =>
    let file := join (parts ++ [name])
    { folder with written := (file, text) :: folder.written.filter fun entry => entry.1 != file }

/-- Creates or replaces a file. A slash at the end asks for a directory, whatever is there. -/
def write (folder : Folder) (path text : String) : Except FileFault Folder := do
  match ← folder.follow path with
  | (_, none) => throw .isDirectory
  | (place, some name) =>
    if endsInSlash path then throw .isDirectory
    match ← folder.find place name with
    | .directory _ => throw .isDirectory
    | .file _ | .vacant => return folder.put place name text

/-- The files that were not there before the run, with their contents. -/
def created (folder : Folder) : List (String × String) :=
  folder.written.filter fun file => (folder.files.lookup file.1).isNone

/-- All standard output. -/
def output (folder : Folder) : String := String.join folder.printed.reverse

/-- All messages. -/
def messages (folder : Folder) : List String := folder.reports.reverse

/-- A folder as the host of a run. Its clock stands still. -/
def host : Host (StateM Folder) where
  read path := do return (← get).read path
  write path text := do
    match (← get).write path text with
    | .ok folder =>
      set folder
      return .ok ()
    | .error fault => return .error fault
  print text := modify fun folder => { folder with printed := text :: folder.printed }
  report line := modify fun folder => { folder with reports := line :: folder.reports }
  clock := return 0

/-- Carries out a command line in a folder: the exit status and the folder afterwards. -/
def run (folder : Folder) (surroundings : Surroundings) (words : List String) :
    UInt8 × Folder :=
  StateT.run (CommandLine.run host surroundings words) folder

end Folder

end SpeechRom.CommandLine
