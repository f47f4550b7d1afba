import CilAssembly.CommandLine.Run

/-! The command line on the file system. -/
namespace CilAssembly.CommandLine

/-- The cause of an error of the file system. -/
def FileError.ofSystem : IO.Error → FileError
  | .noFileOrDirectory .. => .notFound
  | .inappropriateType file code details =>
    -- error numbers come with either sign
    if code == 20 || code == -20 then .notADirectory
    else if code == 21 || code == -21 then .isADirectory
    else .other (toString (IO.Error.inappropriateType file code details))
  | e => .other (toString e)

/-- Runs a file operation and keeps the cause of an error. -/
def catching {α : Type} (action : IO α) : IO (Except FileError α) := do
  try return .ok (← action)
  catch e => return .error (FileError.ofSystem e)

def readTextFile (path : String) : IO (Except FileError String) := do
  match ← catching (IO.FS.readBinFile path) with
  | .error e => return .error e
  | .ok bytes =>
    match String.fromUTF8? bytes with
    | some text => return .ok text
    | none => return .error .notText

def fileSystem : Host IO where
  readText := readTextFile
  writeText path text := catching (IO.FS.writeFile path text)
  print := IO.print
  printError := IO.eprint
  showReport report := IO.eprint report.render
  clock := IO.monoNanosNow

end CilAssembly.CommandLine

def main (args : List String) : IO UInt32 :=
  CilAssembly.CommandLine.run CilAssembly.CommandLine.fileSystem args
