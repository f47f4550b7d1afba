import CilAssembly.Context

/-! Program items and scopes: what a front end declares before it generates code. -/
namespace CilAssembly.Gen

/-- Adds a program item. -/
def addItem {α : Type} (add : Image → α × Image) : Gen α :=
  modifyGet fun c =>
    let (id, image) := add c.image
    (id, { c with image })

/-- Adds a class of the program. -/
def addClass (space : Option String) (name : String) : Gen ClassId :=
  addItem (·.addClass space name)

def addNestedClass (enclosing : ClassId) (name : String) : Gen ClassId :=
  addItem (·.addNestedClass enclosing name)

def importClass (scope space name : String) : Gen ClassId :=
  addItem (·.importClass scope space name)

def addMethod (owner : ClassId) (name : String) (signature : Signature) : Gen MethodId :=
  addItem (·.addMethod owner name signature)

def addField (owner : ClassId) (name : String) (type : CilType) : Gen FieldId :=
  addItem (·.addField owner name type)

def addMember (owner : ClassId) (name : String) (kind : MemberKind) : Gen MemberId :=
  addItem (·.addMember owner name kind)

/-- Changes the program items. -/
def updateImage (update : Image → Except Violation Image) : Gen Unit := do
  let image ← readImage update
  modify fun c => { c with image }

def modifyClass (id : ClassId) (f : ClassInfo → ClassInfo) : Gen Unit :=
  updateImage (·.modifyClass id f)

def modifyMethod (id : MethodId) (f : MethodInfo → MethodInfo) : Gen Unit :=
  updateImage (·.modifyMethod id f)

def modifyField (id : FieldId) (f : FieldInfo → FieldInfo) : Gen Unit :=
  updateImage (·.modifyField id f)

/-- Opens a lexical scope inside another one. -/
def createScope (parent : ScopeId) (kind : ScopeKind) : Gen ScopeId :=
  modifyGet fun c =>
    let (id, scopes) := c.scopes.create parent kind
    (id, { c with scopes })

def scope (id : ScopeId) : Gen Scope := do
  orViolate ((← get).scopes.get id)

/-- Declares a name in a scope. Returns what the name meant there before. -/
def declare (scope : ScopeId) (name : String) (item : Item) : Gen (Option Item) := do
  let (previous, scopes) ← orViolate ((← get).scopes.declare scope name item)
  modify fun c => { c with scopes }
  return previous

/-- The item that a name means in a scope. -/
def lookup (scope : ScopeId) (name : String) : Gen (Option Item) := do
  orViolate ((← get).scopes.lookup scope name)

end CilAssembly.Gen
