/-!
What stands around the working directory in every system: directories, links between them and
special files, each given by the names on the way to it from the root.
-/
namespace CilAssembly.CommandLine

/-- Special files. Nothing is read from them as text. -/
inductive Device
  /-- Takes everything and keeps nothing. -/
  | null
  /-- Has no room. -/
  | full
  /-- Cannot be opened, since nobody sits at it. -/
  | terminal
  /-- The program that runs. It is no text and cannot be changed. -/
  | program
  | standardInput
  | standardOutput
  | standardError
  deriving DecidableEq, Repr, Inhabited

namespace Device

/-- The device that the names on the way from the root lead to. -/
def ofNames? : List String → Option Device
  | ["dev", "null"] | ["dev", "zero"] | ["dev", "random"] | ["dev", "urandom"] => some .null
  | ["dev", "full"] => some .full
  | ["dev", "tty"] => some .terminal
  | ["proc", "self", "exe"] => some .program
  | ["dev", "stdin"] | ["proc", "self", "fd", "0"] => some .standardInput
  | ["dev", "stdout"] | ["proc", "self", "fd", "1"] => some .standardOutput
  | ["dev", "stderr"] | ["proc", "self", "fd", "2"] => some .standardError
  | _ => none

end Device

namespace SystemTree

/-- The directory that the command line runs in. Its own name is empty, so that no path can spell
it. -/
def workingDirectory : List String := ["tmp", ""]

/-- The directories, by the directory they stand in. -/
def members : List (List String × List String) :=
  [([], ["boot", "dev", "etc", "home", "media", "mnt", "opt", "proc", "root", "run", "srv", "sys",
      "tmp", "usr", "var"]),
    (["dev"], ["mqueue", "pts", "shm"]),
    (["proc"], ["1", "bus", "driver", "fs", "irq", "self", "sys", "tty"]),
    (["proc", "self"], ["attr", "fd", "fdinfo", "map_files", "net", "ns", "task"]),
    (["run"], ["lock"]),
    (["sys"], ["block", "bus", "class", "dev", "devices", "firmware", "fs", "kernel", "module",
      "power"]),
    (["usr"], ["bin", "games", "include", "lib", "lib64", "libexec", "local", "sbin", "share",
      "src"]),
    (["usr", "local"], ["bin", "etc", "games", "include", "lib", "sbin", "share", "src"]),
    (["var"], ["backups", "cache", "lib", "local", "log", "mail", "opt", "spool", "tmp"])]

/-- All directories that are there before a file is laid out, the root among them. -/
def directories : List (List String) :=
  [] :: workingDirectory ::
    members.flatMap fun (names, inside) => inside.map fun name => names ++ [name]

/-- The names that stand for a directory somewhere else. -/
def links : List (List String × List String) :=
  [(["bin"], ["usr", "bin"]),
    (["lib"], ["usr", "lib"]),
    (["lib64"], ["usr", "lib64"]),
    (["sbin"], ["usr", "sbin"]),
    (["dev", "fd"], ["proc", "self", "fd"]),
    (["proc", "net"], ["proc", "self", "net"]),
    (["proc", "self", "cwd"], workingDirectory),
    (["proc", "self", "root"], []),
    (["proc", "thread-self"], ["proc", "self"]),
    (["var", "lock"], ["run", "lock"]),
    (["var", "run"], ["run"])]

/-- The system itself makes what stands in these directories, and nobody else can put a file there.
No name is too long to be looked for in them. -/
def isGenerated (names : List String) : Bool :=
  ["proc"].isPrefixOf names

end SystemTree

end CilAssembly.CommandLine
