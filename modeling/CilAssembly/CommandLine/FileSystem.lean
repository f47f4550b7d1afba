import CilAssembly.CommandLine.Run
import CilAssembly.CommandLine.SystemTree

/-! A file system in memory, and the command line run inside it. -/
namespace CilAssembly.CommandLine

open SystemTree (workingDirectory isGenerated)

/-- Directories and files by the names on the way to them from the root. -/
structure FileSystem where
  directories : List (List String) := SystemTree.directories
  files : List (List String × ByteArray) := []
  deriving Inhabited

namespace FileSystem

/-- The content of the file with these names on the way to it. -/
def file? (s : FileSystem) (names : List String) : Option ByteArray :=
  s.files.lookup names

def isDirectory (s : FileSystem) (names : List String) : Bool :=
  s.directories.contains names

def put (s : FileSystem) (names : List String) (content : ByteArray) : FileSystem :=
  { s with files := (names, content) :: s.files.filter fun (file, _) => file != names }

/-- Makes the directories on the way along the parts of a path, and tells where they end. -/
def makeDirectories (s : FileSystem) (here : List String) :
    List String → FileSystem × List String
  | [] => (s, here)
  | part :: rest =>
    if part == "" || part == "." then s.makeDirectories here rest
    else if part == ".." then s.makeDirectories here.dropLast rest
    else
      let names := here ++ [part]
      { s with directories := names :: s.directories }.makeDirectories names rest

/-- Adds a file by its path from the working directory, with the directories on the way to it. -/
def addFile (s : FileSystem) (path : String) (content : ByteArray) : FileSystem :=
  let parts := path.splitOn "/"
  let (s, here) := s.makeDirectories workingDirectory parts.dropLast
  s.put (here ++ parts.getLast?.toList) content

/-- A file system with files in the working directory, given by their paths. -/
def ofWorkingFiles (files : List (String × ByteArray)) : FileSystem :=
  files.foldl (fun s (path, content) => s.addFile path content) {}

/-- Where a path leads. A path may end in slashes, as if it led to a directory. -/
inductive Place
  | file (names : List String) (slashes : Bool)
  | device (device : Device) (slashes : Bool)
  | directory
  /-- Nothing is there, but the directory around it is. -/
  | missing (names : List String) (slashes : Bool)
  /-- The last name is too long for a file. -/
  | tooLong (slashes : Bool)
  deriving DecidableEq, Repr, Inhabited

/-- The size in bytes of the longest name of a file. -/
def maxNameSize : Nat := 255

/-- The size in bytes of the longest path. -/
def maxPathSize : Nat := 4095

/-- Follows the parts of a path from a directory. The root is its own parent. -/
def follow (s : FileSystem) (here : List String) : List String → Except FileError Place
  | [] => .ok .directory
  | part :: rest =>
    if part == "" || part == "." then s.follow here rest
    else if part == ".." then s.follow here.dropLast rest
    else
      let names := here ++ [part]
      let isLast := rest.all (· == "")
      let slashes := !rest.isEmpty
      if maxNameSize < part.utf8ByteSize && !isGenerated here then
        if isLast then .ok (.tooLong slashes) else .error .nameTooLong
      else if s.isDirectory names then s.follow names rest
      else
        match SystemTree.links.lookup names, Device.ofNames? names, s.file? names with
        | some target, _, _ => s.follow target rest
        | none, some device, _ =>
          if isLast then .ok (.device device slashes) else .error .notADirectory
        | none, none, some _ => if isLast then .ok (.file names slashes) else .error .notADirectory
        | none, none, none => if isLast then .ok (.missing names slashes) else .error .notFound

/-- Where a path leads, from the root or from the working directory. -/
def find (s : FileSystem) (path : String) : Except FileError Place :=
  if maxPathSize < path.utf8ByteSize then .error .nameTooLong
  else
    match path.toList with
    | [] => .error .notFound
    | '/' :: _ => s.follow [] (path.splitOn "/")
    | _ => s.follow workingDirectory (path.splitOn "/")

def readText (s : FileSystem) (path : String) : Except FileError String := do
  match ← s.find path with
  | .file names false =>
    match (s.file? names).bind String.fromUTF8? with
    | some text => return text
    | none => throw .notText
  | .device .terminal false => throw .noDevice
  | .device .program false => throw .notText
  | .device _ false => return ""
  | .file _ true | .device _ true => throw .notADirectory
  | .directory => throw .isADirectory
  | .missing .. => throw .notFound
  | .tooLong _ => throw .nameTooLong

/-- What a path to write to leads to: a device, or the names of a file. Slashes at the end always
stand for a directory. -/
def findOutput (s : FileSystem) (path : String) : Except FileError (Device ⊕ List String) := do
  match ← s.find path with
  | .file names false => return .inr names
  | .missing names false => if isGenerated names then throw .notFound else return .inr names
  | .device device false => return .inl device
  | .tooLong false => throw .nameTooLong
  | .file _ true | .device _ true | .missing _ true | .tooLong true | .directory =>
    throw .isADirectory

end FileSystem

/-- What a run has done so far. -/
structure Session where
  system : FileSystem
  printed : String := ""
  errors : String := ""
  reports : List Brainfuck.Report := []
  deriving Inhabited

namespace Session

def print (s : Session) (text : String) : Session :=
  { s with printed := s.printed ++ text }

def printError (s : Session) (text : String) : Session :=
  { s with errors := s.errors ++ text }

def writeText (s : Session) (path text : String) : Except FileError Session := do
  match ← s.system.findOutput path with
  | .inr names => return { s with system := s.system.put names text.toUTF8 }
  | .inl .null | .inl .standardInput => return s
  | .inl .terminal => throw .noDevice
  | .inl .program => throw .busy
  | .inl .full => if text.isEmpty then return s else throw .noSpace
  | .inl .standardOutput => return s.print text
  | .inl .standardError => return s.printError text

/-- Runs inside a file system. No time passes. -/
def host : Host (StateM Session) where
  readText path := return (← get).system.readText path
  writeText path text := do
    match (← get).writeText path text with
    | .ok s => modifyGet fun _ => (.ok (), s)
    | .error e => return .error e
  print text := modify (·.print text)
  printError text := modify (·.printError text)
  showReport report := modify fun s => { s with reports := s.reports ++ [report] }
  clock := return 0

/-- The files that stand in the working directory itself and are new or different from before. -/
def changedFiles (s : Session) (before : FileSystem) : List (String × ByteArray) :=
  s.system.files.filterMap fun (names, content) =>
    match names.getLast? with
    | some name =>
      if names != workingDirectory ++ [name] ||
          (before.file? names).any (·.data == content.data) then none
      else some (name, content)
    | none => none

end Session

end CilAssembly.CommandLine
