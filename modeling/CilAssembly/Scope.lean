import CilAssembly.Image
import CilAssembly.SyntaxTree

/-! Lexical scopes. A scope names items and stands inside another scope; looking a name up walks outwards. -/
namespace CilAssembly

inductive ScopeKind
  | global
  | nameSpace (name : String)
  | ofClass
  | ofBlock
  deriving DecidableEq, Repr, Inhabited

namespace ScopeKind

def dump : ScopeKind → String
  | .global => "Global"
  | .nameSpace name => Dump.apply "Namespace" [Dump.text name]
  | .ofClass => "Class"
  | .ofBlock => "Local"

end ScopeKind

/-- A scope. Its declarations stand newest first, so that the newest one of a name is found. -/
structure Scope where
  kind : ScopeKind
  parent : Option ScopeId
  names : List (String × Item) := []
  deriving DecidableEq, Repr, Inhabited

structure Scopes where
  scopes : Array Scope
  deriving DecidableEq, Repr

namespace Scopes

/-- Only the global scope. -/
def initial : Scopes :=
  ⟨#[{ kind := .global, parent := none }]⟩

instance : Inhabited Scopes := ⟨initial⟩

def global : ScopeId := ⟨0⟩

/-- Opens a scope inside another one. -/
def create (s : Scopes) (parent : ScopeId) (kind : ScopeKind) : ScopeId × Scopes :=
  (⟨s.scopes.size⟩, ⟨s.scopes.push { kind, parent := some parent }⟩)

def get (s : Scopes) (id : ScopeId) : Except Violation Scope :=
  fetch s.scopes id.index

/-- Declares a name in a scope. Returns what the name meant in that same scope before. -/
def declare (s : Scopes) (id : ScopeId) (name : String) (item : Item) :
    Except Violation (Option Item × Scopes) := do
  let scope ← s.get id
  let update (scope : Scope) : Scope := { scope with names := (name, item) :: scope.names }
  return (scope.names.lookup name, ⟨s.scopes.modify id.index update⟩)

/-- Looks a name up in a scope and in at most `depth` scopes around it. -/
def lookupWithin (s : Scopes) (name : String) (depth : Nat) (id : ScopeId) :
    Except Violation (Option Item) := do
  let scope ← s.get id
  match scope.names.lookup name, scope.parent with
  | some item, _ => return some item
  | none, none => return none
  | none, some parent =>
    match depth with
    | 0 => throw .endlessNesting
    | depth + 1 => s.lookupWithin name depth parent

/-- The item that a name means in a scope: that of the nearest scope around it that declares it. -/
def lookup (s : Scopes) (id : ScopeId) (name : String) : Except Violation (Option Item) :=
  s.lookupWithin name s.scopes.size id

end Scopes

end CilAssembly
