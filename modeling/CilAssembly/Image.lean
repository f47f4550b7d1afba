import CilAssembly.Stop

/-!
The items of a program: classes, methods, fields and other members. Items are only ever added, so an
index stays good for the whole unit, and nothing checks an index before it is used.
-/
namespace CilAssembly

structure ClassId where
  index : Nat
  deriving DecidableEq, Repr, Inhabited

structure MethodId where
  index : Nat
  deriving DecidableEq, Repr, Inhabited

structure FieldId where
  index : Nat
  deriving DecidableEq, Repr, Inhabited

/-- The index of an event, a property or an enumeration member. -/
structure MemberId where
  index : Nat
  deriving DecidableEq, Repr, Inhabited

inductive Item
  | ofClass (id : ClassId)
  | ofMethod (id : MethodId)
  | ofField (id : FieldId)
  | ofMember (id : MemberId)
  deriving DecidableEq, Repr, Inhabited

/-- A class of the program or of another assembly. -/
structure ClassInfo where
  name : String
  space : Option String := none
  scope : Option String := none
  enclosing : Option ClassId := none
  isValueType : Bool := false
  deriving DecidableEq, Repr, Inhabited

/-- A method signature; `hasThis` tells that the first argument is the object itself. -/
structure Signature where
  result : CilType
  params : List CilType
  hasThis : Bool := false
  deriving DecidableEq, Repr, Inhabited

structure MethodInfo where
  owner : ClassId
  name : String
  signature : Signature
  isVirtual : Bool := false
  isStatic : Bool
  isEntryPoint : Bool := false
  deriving DecidableEq, Repr, Inhabited

structure FieldInfo where
  owner : ClassId
  name : String
  type : CilType
  isStatic : Bool := false
  isVolatile : Bool := false
  deriving DecidableEq, Repr, Inhabited

inductive MemberKind
  | event | property | enumMember
  deriving DecidableEq, Repr, Inhabited

structure MemberInfo where
  owner : ClassId
  name : String
  kind : MemberKind
  deriving DecidableEq, Repr, Inhabited

structure Image where
  classes : Array ClassInfo := #[]
  methods : Array MethodInfo := #[]
  fields : Array FieldInfo := #[]
  members : Array MemberInfo := #[]
  deriving DecidableEq, Repr, Inhabited

namespace Image

def pushClass (image : Image) (info : ClassInfo) : ClassId × Image :=
  (⟨image.classes.size⟩, { image with classes := image.classes.push info })

/-- Adds a class of the program. -/
def addClass (image : Image) (space : Option String) (name : String) : ClassId × Image :=
  image.pushClass { name, space }

def addNestedClass (image : Image) (enclosing : ClassId) (name : String) : ClassId × Image :=
  image.pushClass { name, enclosing := some enclosing }

def importClass (image : Image) (scope space name : String) : ClassId × Image :=
  image.pushClass { name, space := some space, scope := some scope }

/-- Adds a method; it is static unless its signature takes the object. -/
def addMethod (image : Image) (owner : ClassId) (name : String) (signature : Signature) :
    MethodId × Image :=
  (⟨image.methods.size⟩,
    { image with
      methods := image.methods.push { owner, name, signature, isStatic := !signature.hasThis } })

def addField (image : Image) (owner : ClassId) (name : String) (type : CilType) : FieldId × Image :=
  (⟨image.fields.size⟩, { image with fields := image.fields.push { owner, name, type } })

def addMember (image : Image) (owner : ClassId) (name : String) (kind : MemberKind) :
    MemberId × Image :=
  (⟨image.members.size⟩, { image with members := image.members.push { owner, name, kind } })

def getClass (image : Image) (id : ClassId) : Except Violation ClassInfo :=
  fetch image.classes id.index

def getMethod (image : Image) (id : MethodId) : Except Violation MethodInfo :=
  fetch image.methods id.index

def getField (image : Image) (id : FieldId) : Except Violation FieldInfo :=
  fetch image.fields id.index

def getMember (image : Image) (id : MemberId) : Except Violation MemberInfo :=
  fetch image.members id.index

def modifyClass (image : Image) (id : ClassId) (f : ClassInfo → ClassInfo) :
    Except Violation Image := do
  let _ ← image.getClass id
  return { image with classes := image.classes.modify id.index f }

def modifyMethod (image : Image) (id : MethodId) (f : MethodInfo → MethodInfo) :
    Except Violation Image := do
  let _ ← image.getMethod id
  return { image with methods := image.methods.modify id.index f }

def modifyField (image : Image) (id : FieldId) (f : FieldInfo → FieldInfo) :
    Except Violation Image := do
  let _ ← image.getField id
  return { image with fields := image.fields.modify id.index f }

/-- The class that an item belongs to. A class belongs to none. -/
def ownerOf (image : Image) : Item → Except Violation (Option ClassId)
  | .ofClass _ => return none
  | .ofMethod id => return some (← image.getMethod id).owner
  | .ofField id => return some (← image.getField id).owner
  | .ofMember id => return some (← image.getMember id).owner

/-- The name of a class that at most `depth` classes enclose. -/
def classNameWithin (image : Image) (depth : Nat) (id : ClassId) :
    Except Violation ClassName := do
  let info ← image.getClass id
  match info.enclosing with
  | none => return .outer info.scope info.space info.name
  | some enclosing =>
    match depth with
    | 0 => throw .endlessNesting
    | depth + 1 => return .nested (← image.classNameWithin depth enclosing) info.name

/-- The name of a class, along the chain of classes around it. -/
def className (image : Image) (id : ClassId) : Except Violation ClassName :=
  image.classNameWithin image.classes.size id

/-- The type of the values of a class. -/
def classType (image : Image) (id : ClassId) : Except Violation CilType := do
  let name ← image.className id
  let info ← image.getClass id
  return if info.isValueType then .valueType name else .classType name

/-- The reference to a method, such as `instance void Owner::Name(int32)`. A signature of the call
site stands in for the declared one. -/
def methodRef (image : Image) (id : MethodId) (callSite : Option Signature) :
    Except Violation String := do
  let info ← image.getMethod id
  let signature := callSite.getD info.signature
  let owner ← image.className info.owner
  return (if signature.hasThis then "instance " else "") ++ signature.result.render ++ " " ++
    owner.render ++ "::" ++ Identifier.quote info.name ++ "(" ++
    CilType.renderList signature.params ++ ")"

/-- The reference to a field, such as `int32 Owner::name`. -/
def fieldRef (image : Image) (id : FieldId) : Except Violation String := do
  let info ← image.getField id
  let owner ← image.className info.owner
  return info.type.render ++ " " ++ owner.render ++ "::" ++ Identifier.quote info.name

end Image

end CilAssembly
