import CilAssembly.Identifier
import CilAssembly.Text.Dump

/-! Names of classes as they appear in assembly text, such as `[.library]System.Console` and `Outer/Inner`. -/
namespace CilAssembly

/-- The assembly that holds the system classes. -/
def libraryScope : String := ".library"

/-- A class name: the assembly it is imported from, its namespace and its simple name, and for a
nested class the class around it. Only the outermost class of a nesting chain shows its assembly and
its namespace. -/
inductive ClassName
  | outer (scope : Option String) (space : Option String) (name : String)
  | inner (enclosing : ClassName) (scope : Option String) (space : Option String) (name : String)
  deriving DecidableEq, Repr, Inhabited

namespace ClassName

/-- A class of the program itself. -/
def ofProgram (space : Option String) (name : String) : ClassName :=
  .outer none space name

def imported (scope space name : String) : ClassName :=
  .outer (some scope) (some space) name

/-- A class of the system library. -/
def system (name : String) : ClassName :=
  imported libraryScope "System" name

def nested (enclosing : ClassName) (name : String) : ClassName :=
  .inner enclosing none none name

/-- The class is the given top-level class of the `System` namespace, whatever assembly it is
imported from. -/
def isSystem : ClassName → String → Bool
  | .outer _ space own, name => space == some "System" && own == name
  | .inner .., _ => false

/-- The assembly spelling of a class name. -/
def render : ClassName → String
  | .outer scope space name =>
    (match scope with
      | some scope => "[" ++ scope ++ "]"
      | none => "") ++
    (match space with
      | some space => Identifier.quote space ++ "."
      | none => "") ++
    Identifier.quote name
  | .inner enclosing _ _ name => enclosing.render ++ "/" ++ Identifier.quote name

/-- The structural dump of a class name. -/
def dump : ClassName → String
  | .outer scope space name => fields scope space name none
  | .inner enclosing scope space name => fields scope space name (some enclosing.dump)
where
  fields (scope space : Option String) (name : String) (enclosing : Option String) : String :=
    Dump.record "ClassName"
      [("scope", Dump.option (scope.map Dump.text)),
       ("namespace", Dump.option (space.map Dump.text)),
       ("name", Dump.text name),
       ("nested_in", Dump.option enclosing)]

end ClassName

end CilAssembly
