import CilAssembly.Context.Items
import CilAssembly.Proofs.Generation.Methods

/-!
Entering an item. The lexical context at the declaration of an item is a matter of the program
items, the nodes bound to them and the default arithmetic of the unit; where the item is entered
from plays no part.
-/
namespace CilAssembly

namespace Image

/-- The index of an item has an entry. -/
def Contains (image : Image) : Item → Prop
  | .ofClass id => id.index < image.classes.size
  | .ofMethod id => id.index < image.methods.size
  | .ofField id => id.index < image.fields.size
  | .ofMember id => id.index < image.members.size

instance (image : Image) (item : Item) : Decidable (image.Contains item) := by
  cases item <;> exact Nat.decLt ..

/-- The class whose definition an item stands in: the owner of a member, the enclosing class of a
class. -/
def around? (image : Image) : Item → Option ClassId
  | .ofClass id => image.classes[id.index]?.bind (·.enclosing)
  | .ofMethod id => image.methods[id.index]?.map (·.owner)
  | .ofField id => image.fields[id.index]?.map (·.owner)
  | .ofMember id => image.members[id.index]?.map (·.owner)

end Image

lemma fetch_of_lt {α : Type} {table : Array α} {index : Nat} (h : index < table.size) :
    fetch table index = .ok table[index] := by
  rw [fetch_eq_ok, Array.getElem?_eq_getElem h]

lemma Image.checkBindable_of_contains {image : Image} {item : Item} (h : image.Contains item) :
    image.checkBindable item = .ok () := by
  cases item with
  | ofClass id => simp only [checkBindable, getClass, fetch_of_lt h]; rfl
  | ofMethod id => simp only [checkBindable, getMethod, fetch_of_lt h]; rfl
  | ofField id => rfl
  | ofMember id => rfl

lemma Image.ownerOf_of_contains {image : Image} {item : Item} (h : image.Contains item)
    (hitem : ∀ id, item ≠ .ofClass id) : image.ownerOf item = .ok (image.around? item) := by
  cases item with
  | ofClass id => exact absurd rfl (hitem id)
  | ofMethod id =>
    simp only [ownerOf, getMethod, fetch_of_lt h, around?, Array.getElem?_eq_getElem h]
    rfl
  | ofField id =>
    simp only [ownerOf, getField, fetch_of_lt h, around?, Array.getElem?_eq_getElem h]
    rfl
  | ofMember id =>
    simp only [ownerOf, getMember, fetch_of_lt h, around?, Array.getElem?_eq_getElem h]
    rfl

/-- The scope and the namespace that a scope change leads to. -/
def changedScope : Option NodeKind → ScopeId × Option NodeId
  | some (.scopeChange scope space) => (scope, space)
  | _ => (Scopes.global, none)

/-- The lexical context of an item by its declaration, the class around it and what that changes. -/
def Lexical.ofDeclaration (item : Item) (declaration : NodeKind) (classNode : Option NodeId)
    (definition : Option ClassDefinition) (change : Option NodeKind) (checked : Bool) :
    Lexical where
  scope := (changedScope change).1
  classNode
  spaceNode := (changedScope change).2
  typeFormals := definition.bind (·.typeFormals)
  methodFormals := match item, declaration with
    | .ofMethod _, .methodDeclaration _ formals _ => formals
    | _, _ => none
  checked
  checkedChanged := false

namespace Context
variable (c : Context) (tree : SyntaxTree) (item : Item)

/-- The node of the class around an item. -/
def classAround? : Option NodeId :=
  (c.image.around? item).bind fun id => c.bindings.lookup (.ofClass id)

/-- The definition of the class around an item. -/
def definitionAround? : Option ClassDefinition :=
  (c.classAround? item).bind tree.classDefinition?

/-- What entering an item refers to is there: the item and the class around it, the node of the item
and the scope change of the class. -/
structure Resolves : Prop where
  found : c.image.Contains item
  around : ∀ id ∈ c.image.around? item, c.image.Contains (.ofClass id)
  node : ∀ id ∈ c.bindings.lookup item, ∃ node, tree.get? id = some node
  change : ∀ definition ∈ c.definitionAround? tree item, ∀ id ∈ definition.scopeChange,
    ∃ node, tree.get? id = some node

/-- The definition of the class around an item changes to a scope and a namespace. -/
def ChangesTo (scope : ScopeId) (space : Option NodeId) : Prop :=
  ∃ definition ∈ c.definitionAround? tree item, ∃ id ∈ definition.scopeChange, ∃ location,
    tree.get? id = some ⟨.scopeChange scope space, location⟩

/-- The item is a method, and its declaration has the formals. -/
def DeclaresFormals (formals : Option NodeId) : Prop :=
  ∃ method node name body location, item = .ofMethod method ∧
    c.bindings.lookup item = some node ∧
    tree.get? node = some ⟨.methodDeclaration name formals body, location⟩

/-- The lexical context at the declaration of an item. -/
structure AtDeclaration (lexical : Lexical) : Prop where
  classNode : lexical.classNode = c.classAround? item
  change : ∀ scope space, c.ChangesTo tree item scope space →
    lexical.scope = scope ∧ lexical.spaceNode = space
  noChange : (∀ scope space, ¬c.ChangesTo tree item scope space) →
    lexical.scope = Scopes.global ∧ lexical.spaceNode = none
  typeFormals : lexical.typeFormals = (c.definitionAround? tree item).bind (·.typeFormals)
  methodFormals : ∀ formals, c.DeclaresFormals tree item formals → lexical.methodFormals = formals
  noMethodFormals : (∀ formals, ¬c.DeclaresFormals tree item formals) →
    lexical.methodFormals = none
  checked : lexical.checked = c.checkedByDefault
  checkedChanged : lexical.checkedChanged = false

/-- The kind of the scope change of the class around an item. -/
def changeAround? : Option NodeKind :=
  ((c.definitionAround? tree item).bind (·.scopeChange)).bind fun id =>
    (tree.get? id).map (·.kind)

/-- The context that entering an item with a declaration gives. -/
def lexicalAt (declaration : NodeKind) : Lexical :=
  .ofDeclaration item declaration (c.classAround? item) (c.definitionAround? tree item)
    (c.changeAround? tree item) c.checkedByDefault

section
variable {c tree item}

lemma changeAround?_eq_iff {scope : ScopeId} {space : Option NodeId} :
    c.changeAround? tree item = some (.scopeChange scope space) ↔
      c.ChangesTo tree item scope space := by
  constructor
  · intro h
    obtain ⟨id, hid, hkind⟩ := Option.bind_eq_some_iff.mp h
    obtain ⟨definition, hdefinition, hchange⟩ := Option.bind_eq_some_iff.mp hid
    obtain ⟨⟨kind, location⟩, hnode, rfl⟩ := Option.map_eq_some_iff.mp hkind
    exact ⟨definition, hdefinition, id, hchange, location, hnode⟩
  · rintro ⟨definition, hdefinition, id, hchange, location, hnode⟩
    rw [changeAround?, Option.mem_def.mp hdefinition, Option.bind_some, Option.mem_def.mp hchange,
      Option.bind_some, hnode, Option.map_some]

/-- Entering an item gives the context at its declaration. -/
lemma atDeclaration_lexicalAt {id : NodeId} {node : Node} (hid : c.bindings.lookup item = some id)
    (hnode : tree.get? id = some node) :
    c.AtDeclaration tree item (c.lexicalAt tree item node.kind) where
  classNode := rfl
  change scope space h := by
    rw [lexicalAt, changeAround?_eq_iff.mpr h]
    exact ⟨rfl, rfl⟩
  noChange h := by
    have hscope : changedScope (c.changeAround? tree item) = (Scopes.global, none) := by
      unfold changedScope
      split
      case h_1 hchange => exact absurd (changeAround?_eq_iff.mp hchange) (h _ _)
      case h_2 => rfl
    exact ⟨congrArg Prod.fst hscope, congrArg Prod.snd hscope⟩
  typeFormals := rfl
  methodFormals formals h := by
    obtain ⟨method, id', name, body, location, rfl, hid', hnode'⟩ := h
    rw [hid] at hid'
    cases hid'
    rw [hnode] at hnode'
    cases hnode'
    rfl
  noMethodFormals h := by
    unfold lexicalAt Lexical.ofDeclaration
    dsimp only
    split
    case h_1 method name formals body hkind =>
      obtain ⟨kind, location⟩ := node
      cases hkind
      exact absurd ⟨method, id, name, body, location, rfl, hid, hnode⟩ (h formals)
    case h_2 => rfl
  checked := rfl
  checkedChanged := rfl

end

end Context

namespace Gen
variable {c : Context} {tree : SyntaxTree} {item : Item}

lemma nodeOf_apply (h : c.image.Contains item) :
    nodeOf item c = .ok (c.bindings.lookup item) c := by
  have hread : readImage (·.checkBindable item) c = .ok () c :=
    readImage_apply (Image.checkBindable_of_contains h)
  simp only [nodeOf, bind_apply, hread, get_apply, pure_apply]

lemma surroundingClass_apply (h : c.image.Contains item) :
    surroundingClass item c = .ok (c.image.around? item) c := by
  have hread (hitem : ∀ id, item ≠ .ofClass id) :
      readImage (·.ownerOf item) c = .ok (c.image.around? item) c :=
    readImage_apply (Image.ownerOf_of_contains h hitem)
  cases item with
  | ofClass id =>
    have hclass : readImage (·.getClass id) c = .ok c.image.classes[id.index] c :=
      readImage_apply (fetch_of_lt h)
    simp only [surroundingClass, bind_apply, hclass, pure_apply, Image.around?,
      Array.getElem?_eq_getElem h, Option.bind_some]
  | ofMethod id => exact hread nofun
  | ofField id => exact hread nofun
  | ofMember id => exact hread nofun

/-- An item without a node is not entered. -/
lemma enterItem_unbound (h : c.image.Contains item) (hnode : c.bindings.lookup item = none) :
    enterItem tree item c = .ok none c := by
  simp only [enterItem, bind_apply, nodeOf_apply h, hnode, pure_apply]

/-- An item with a node is entered where everything that it refers to is there. -/
lemma enterItem_apply (h : c.Resolves tree item) {id : NodeId} {node : Node}
    (hid : c.bindings.lookup item = some id) (hnode : tree.get? id = some node) :
    enterItem tree item c =
      .ok (some c.lexical) { c with lexical := c.lexicalAt tree item node.kind } := by
  have hdeclaration : tree.get id = .ok node := fetch_eq_ok.mpr hnode
  simp only [enterItem, bind_apply, nodeOf_apply h.found, hid, get_apply,
    surroundingClass_apply h.found]
  cases howner : c.image.around? item with
  | none =>
    have hclass : c.classAround? item = none := by
      rw [Context.classAround?, howner, Option.bind_none]
    have hdefinition : c.definitionAround? tree item = none := by
      rw [Context.definitionAround?, hclass, Option.bind_none]
    simp only [bind_apply, pure_apply, modifyLexical, modify_apply, Option.bind_none, hdeclaration,
      orViolate_ok]
    rw [Context.lexicalAt, Context.changeAround?, hclass, hdefinition]
    rfl
  | some owner =>
    have hclass : c.classAround? item = c.bindings.lookup (.ofClass owner) := by
      rw [Context.classAround?, howner, Option.bind_some]
    have hdefinition : (c.bindings.lookup (.ofClass owner)).bind tree.classDefinition? =
        c.definitionAround? tree item := by
      rw [Context.definitionAround?, hclass]
    simp only [bind_apply, nodeOf_apply (h.around owner howner), modifyLexical, modify_apply,
      hdefinition]
    cases hchange : (c.definitionAround? tree item).bind (·.scopeChange) with
    | none =>
      simp only [bind_apply, pure_apply, modify_apply, hdeclaration, orViolate_ok]
      rw [Context.lexicalAt, Context.changeAround?, hclass, hchange]
      rfl
    | some change =>
      obtain ⟨definition, hdefinition, hscope⟩ := Option.bind_eq_some_iff.mp hchange
      obtain ⟨target, htarget⟩ := h.change definition hdefinition change hscope
      have hget : tree.get change = .ok target := fetch_eq_ok.mpr htarget
      simp only [bind_apply, pure_apply, modify_apply, hdeclaration, hget, orViolate_ok]
      rw [Context.lexicalAt, Context.changeAround?, hclass, hchange, Option.bind_some, htarget]
      rfl

end Gen

/-- Where an item is entered from plays no part. In two contexts with the same program items,
bindings and default arithmetic, an item without a node changes nothing, and every other item gives
both the lexical context at its declaration. -/
theorem enterItem_agrees {tree : SyntaxTree} {item : Item} {c d : Context}
    (himage : d.image = c.image) (hbindings : d.bindings = c.bindings)
    (hdefault : d.checkedByDefault = c.checkedByDefault) (h : c.Resolves tree item) :
    c.bindings.lookup item = none ∧
      Gen.enterItem tree item c = .ok none c ∧ Gen.enterItem tree item d = .ok none d ∨
    c.bindings.lookup item ≠ none ∧ ∃ lexical, c.AtDeclaration tree item lexical ∧
      Gen.enterItem tree item c = .ok (some c.lexical) { c with lexical } ∧
      Gen.enterItem tree item d = .ok (some d.lexical) { d with lexical } := by
  have h' : d.Resolves tree item := by
    obtain ⟨⟩ := d
    cases himage
    cases hbindings
    exact ⟨h.found, h.around, h.node, h.change⟩
  cases hid : c.bindings.lookup item with
  | none =>
    exact .inl ⟨rfl, Gen.enterItem_unbound h.found hid,
      Gen.enterItem_unbound h'.found (hbindings ▸ hid)⟩
  | some id =>
    obtain ⟨node, hnode⟩ := h.node id hid
    have hlexical : d.lexicalAt tree item node.kind = c.lexicalAt tree item node.kind := by
      obtain ⟨⟩ := d
      cases himage
      cases hbindings
      cases hdefault
      rfl
    refine .inr ⟨Option.some_ne_none id, _, Context.atDeclaration_lexicalAt hid hnode,
      Gen.enterItem_apply h hid hnode, ?_⟩
    rw [← hlexical]
    exact Gen.enterItem_apply h' (hbindings ▸ hid) hnode

/-- A generic class in a namespace, with a generic method. -/
def genericTree : SyntaxTree where
  nodes :=
    #[⟨.nameSpace "Demo", ⟨"demo", 1⟩⟩, ⟨.scopeChange ⟨1⟩ (some ⟨0⟩), ⟨"demo", 2⟩⟩,
      ⟨.typeFormals ["T"], ⟨"demo", 2⟩⟩, ⟨.methodFormals ["U"], ⟨"demo", 3⟩⟩,
      ⟨.methodDeclaration "Map" (some ⟨3⟩) none, ⟨"demo", 3⟩⟩,
      ⟨.classDefinition ⟨"Outer", some ⟨1⟩, some ⟨2⟩, [⟨4⟩]⟩, ⟨"demo", 2⟩⟩]

/-- The unit of that class. -/
def genericUnit : Context :=
  { Context.create {} with
    image :=
      { classes := #[{ name := "Outer", space := some "Demo" }]
        methods := #[⟨⟨0⟩, "Map", ⟨.void, [], true⟩, false, false, false⟩] }
    bindings := [(.ofMethod ⟨0⟩, ⟨4⟩), (.ofClass ⟨0⟩, ⟨5⟩)] }

/-- The unit inside that class, with checked arithmetic. -/
def genericInside : Context :=
  { genericUnit with lexical := { classNode := some ⟨5⟩, checked := true } }

lemma resolves_genericUnit : genericUnit.Resolves genericTree (.ofMethod ⟨0⟩) where
  found := by decide
  around := by decide
  node := by
    rintro id ⟨⟩
    exact ⟨_, rfl⟩
  change := by
    rintro definition ⟨⟩ id ⟨⟩
    exact ⟨_, rfl⟩

/-- Inside its class the method is entered as outside of it. -/
theorem enterItem_agrees_inside :
    genericUnit.Resolves genericTree (.ofMethod ⟨0⟩) ∧
    ∃ lexical : Lexical,
      lexical.scope = ⟨1⟩ ∧ lexical.spaceNode = some ⟨0⟩ ∧ lexical.methodFormals = some ⟨3⟩ ∧
      lexical.checked = false ∧
      Gen.enterItem genericTree (.ofMethod ⟨0⟩) genericUnit =
        .ok (some genericUnit.lexical) { genericUnit with lexical } ∧
      Gen.enterItem genericTree (.ofMethod ⟨0⟩) genericInside =
        .ok (some genericInside.lexical) { genericInside with lexical } := by
  refine ⟨resolves_genericUnit, ?_⟩
  obtain ⟨hunbound, -⟩ | ⟨-, lexical, hlexical, hunit, hinside⟩ :=
    enterItem_agrees (c := genericUnit) (d := genericInside) rfl rfl rfl resolves_genericUnit
  · cases hunbound
  · have hchange : genericUnit.ChangesTo genericTree (.ofMethod ⟨0⟩) ⟨1⟩ (some ⟨0⟩) :=
      ⟨_, rfl, _, rfl, _, rfl⟩
    have hformals : genericUnit.DeclaresFormals genericTree (.ofMethod ⟨0⟩) (some ⟨3⟩) :=
      ⟨_, _, _, _, _, rfl, rfl, rfl⟩
    obtain ⟨hscope, hspace⟩ := hlexical.change _ _ hchange
    exact ⟨lexical, hscope, hspace, hlexical.methodFormals _ hformals, hlexical.checked, hunit,
      hinside⟩

end CilAssembly
