import CilAssembly.Context

/-!
Items, the nodes that declare them, and the lexical context of a declaration. Entering an item puts
the lexical context into the state it has at the declaration of the item, wherever it is entered
from; leaving puts it back.
-/
namespace CilAssembly

/-- Classes and methods must exist to be bound or looked up; fields and other members need not. -/
def Image.checkBindable (image : Image) : Item → Except Violation Unit
  | .ofClass id => do let _ ← image.getClass id
  | .ofMethod id => do let _ ← image.getMethod id
  | .ofField _ | .ofMember _ => .ok ()

/-- The node of a tree at an index. -/
def SyntaxTree.get (tree : SyntaxTree) (id : NodeId) : Except Violation Node :=
  fetch tree.nodes id.index

/-- The lexical context after a region that chose its arithmetic: only that choice is undone. -/
def Lexical.afterRegion (before now : Lexical) : Lexical :=
  { now with checked := before.checked, checkedChanged := before.checkedChanged }

namespace Gen

/-- Records that a node declares an item. -/
def bindItem (item : Item) (node : NodeId) : Gen Unit := do
  readImage (·.checkBindable item)
  modify fun c => { c with bindings := (item, node) :: c.bindings }

/-- The node that declares an item, as bound last. -/
def nodeOf (item : Item) : Gen (Option NodeId) := do
  readImage (·.checkBindable item)
  return (← get).bindings.lookup item

def modifyLexical (f : Lexical → Lexical) : Gen Unit :=
  modify fun c => { c with lexical := f c.lexical }

/-- The class whose definition an item stands in: the owner of a member, the enclosing class of a
class. -/
def surroundingClass : Item → Gen (Option ClassId)
  | .ofClass id => do return (← readImage (·.getClass id)).enclosing
  | item => readImage (·.ownerOf item)

/-- Switches to the lexical context of an item and returns the one before. An item without a node
changes nothing and gives none. -/
def enterItem (tree : SyntaxTree) (item : Item) : Gen (Option Lexical) := do
  let some node ← nodeOf item | return none
  let before := (← get).lexical
  let classNode ← match ← surroundingClass item with
    | some id => nodeOf (.ofClass id)
    | none => pure none
  modifyLexical ({ · with classNode })
  let definition := classNode.bind tree.classDefinition?
  let change ← match definition.bind (·.scopeChange) with
    | some id => pure (some (← orViolate (tree.get id)).kind)
    | none => pure none
  let (scope, spaceNode) := match change with
    | some (.scopeChange scope space) => (scope, space)
    | _ => (Scopes.global, none)
  modifyLexical ({ · with scope, spaceNode, typeFormals := definition.bind (·.typeFormals) })
  let declaration := (← orViolate (tree.get node)).kind
  let methodFormals := match item, declaration with
    | .ofMethod _, .methodDeclaration _ formals _ => formals
    | _, _ => none
  modify fun c =>
    { c with
      lexical :=
        { c.lexical with methodFormals, checked := c.checkedByDefault, checkedChanged := false } }
  return some before

/-- Goes back to an earlier lexical context. -/
def leaveItem (before : Lexical) : Gen Unit :=
  modifyLexical fun _ => before

/-- Runs a step and restores part of the lexical context however the step ends. -/
def restoring {α : Type} (restore : Lexical → Lexical) (body : Gen α) : Gen α := fun c =>
  match body c with
  | .ok a c => .ok a { c with lexical := restore c.lexical }
  | .error e c => .error e { c with lexical := restore c.lexical }

/-- Runs a step in the lexical context of an item, which has to be bound. -/
def withItem {α : Type} (tree : SyntaxTree) (item : Item) (body : Gen α) : Gen (Option α) := do
  match ← enterItem tree item with
  | some before => restoring (fun _ => before) (some <$> body)
  | none => return none

/-- Switches arithmetic checking on or off, as a region of the program asks. Returns the context
before. -/
def enterOverflow (checked : Bool) : Gen Lexical := do
  let before := (← get).lexical
  modifyLexical ({ · with checked, checkedChanged := true })
  return before

/-- Ends a region that chose its arithmetic. -/
def leaveOverflow (before : Lexical) : Gen Unit :=
  modifyLexical before.afterRegion

/-- Runs a step with arithmetic checking on or off. -/
def withOverflow {α : Type} (checked : Bool) (body : Gen α) : Gen α := do
  let before ← enterOverflow checked
  restoring before.afterRegion body

end Gen

end CilAssembly
