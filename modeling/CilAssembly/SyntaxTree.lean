import CilAssembly.CilType
import CilAssembly.Source.Lines

/-!
The declarations and statements of a compilation unit. A front end builds the tree; the generator
reads it and attaches its own data to nodes from outside. Nodes refer to one another by their index.
-/
namespace CilAssembly

/-- The index of a node in its tree. -/
structure NodeId where
  index : Nat
  deriving DecidableEq, Repr, Inhabited

namespace NodeId

def render (id : NodeId) : String :=
  "#" ++ toString id.index

def dump (id : NodeId) : String :=
  Dump.apply "NodeId" [toString id.index]

end NodeId

/-- The index of a lexical scope. Scopes belong to the generator; a tree only records which one a
scope change switches to. -/
structure ScopeId where
  index : Nat
  deriving DecidableEq, Repr, Inhabited

namespace ScopeId

def dump (id : ScopeId) : String :=
  Dump.apply "ScopeId" [toString id.index]

end ScopeId

/-- A class definition: its scope change records where its body stands, its type formals name its
generic parameters. -/
structure ClassDefinition where
  name : String
  scopeChange : Option NodeId
  typeFormals : Option NodeId
  members : List NodeId
  deriving DecidableEq, Repr, Inhabited

inductive NodeKind
  | nameSpace (name : String)
  | classDefinition (definition : ClassDefinition)
  | scopeChange (scope : ScopeId) (space : Option NodeId)
  | typeFormals (names : List String)
  | methodFormals (names : List String)
  | fieldDeclarator (name : String) (type : CilType)
  | methodDeclaration (name : String) (formals : Option NodeId) (body : Option NodeId)
  | eventDeclarator (name : String)
  | propertyDeclaration (name : String)
  | enumMember (name : String) (value : Int)
  | block (statements : List NodeId)
  | statement (description : String)
  | expression (description : String) (type : CilType)
  deriving DecidableEq, Repr, Inhabited

namespace NodeKind

/-- The tag of a node in structural dumps. -/
def tag : NodeKind → String
  | .nameSpace _ => "Namespace"
  | .classDefinition _ => "ClassDefn"
  | .scopeChange .. => "ScopeChange"
  | .typeFormals _ => "TypeFormals"
  | .methodFormals _ => "MethodFormals"
  | .fieldDeclarator .. => "FieldDeclarator"
  | .methodDeclaration .. => "MethodDeclaration"
  | .eventDeclarator _ => "EventDeclarator"
  | .propertyDeclaration _ => "PropertyDeclaration"
  | .enumMember .. => "EnumMemberDeclaration"
  | .block _ => "Block"
  | .statement _ => "Statement"
  | .expression .. => "Expression"

def dump (kind : NodeKind) : String :=
  let node? (id : Option NodeId) := Dump.option (id.map NodeId.dump)
  match kind with
  | .nameSpace name | .eventDeclarator name | .propertyDeclaration name =>
    Dump.record kind.tag [("name", Dump.text name)]
  | .classDefinition definition =>
    Dump.apply kind.tag
      [Dump.record "ClassDefn"
        [("name", Dump.text definition.name), ("scope_change", node? definition.scopeChange),
         ("type_formals", node? definition.typeFormals),
         ("members", Dump.list (definition.members.map NodeId.dump))]]
  | .scopeChange scope space =>
    Dump.record kind.tag [("scope", scope.dump), ("namespace", node? space)]
  | .typeFormals names | .methodFormals names =>
    Dump.apply kind.tag [Dump.list (names.map Dump.text)]
  | .fieldDeclarator name type => Dump.record kind.tag [("name", Dump.text name), ("ty", type.dump)]
  | .methodDeclaration name formals body =>
    Dump.record kind.tag
      [("name", Dump.text name), ("formals", node? formals), ("body", node? body)]
  | .enumMember name value =>
    Dump.record kind.tag [("name", Dump.text name), ("value", toString value)]
  | .block statements => Dump.apply kind.tag [Dump.list (statements.map NodeId.dump)]
  | .statement description => Dump.record kind.tag [("description", Dump.text description)]
  | .expression description type =>
    Dump.record kind.tag [("description", Dump.text description), ("ty", type.dump)]

end NodeKind

structure Node where
  kind : NodeKind
  location : Location
  deriving DecidableEq, Repr, Inhabited

namespace Node

def dump (node : Node) : String :=
  Dump.record "Node" [("kind", node.kind.dump), ("location", node.location.dump)]

def isClass (node : Node) : Bool :=
  match node.kind with
  | .classDefinition _ => true
  | _ => false

end Node

structure SyntaxTree where
  nodes : Array Node := #[]
  deriving DecidableEq, Repr, Inhabited

namespace SyntaxTree

def size (tree : SyntaxTree) : Nat :=
  tree.nodes.size

/-- Adds a node. Returns its index. -/
def push (tree : SyntaxTree) (kind : NodeKind) (location : Location) : NodeId × SyntaxTree :=
  (⟨tree.nodes.size⟩, ⟨tree.nodes.push ⟨kind, location⟩⟩)

def get? (tree : SyntaxTree) (id : NodeId) : Option Node :=
  tree.nodes[id.index]?

/-- The class definition at a node. -/
def classDefinition? (tree : SyntaxTree) (id : NodeId) : Option ClassDefinition :=
  match tree.get? id with
  | some ⟨.classDefinition definition, _⟩ => some definition
  | _ => none

/-- One line per node: its index and its dump. -/
def dumpLines (tree : SyntaxTree) : List String :=
  tree.nodes.toList.zipIdx.map fun (node, index) => NodeId.render ⟨index⟩ ++ " " ++ node.dump

end SyntaxTree

end CilAssembly
