import CilAssembly.Context.Branches
import CilAssembly.Context.Declarations
import CilAssembly.Context.Items
import CilAssembly.Context.Methods
import CilAssembly.Context.Storage
import Mathlib.Tactic.Common

/-!
The operations that a front end performs on a unit, and runs of them. Each operation is said to emit
events: plain instructions, which go through the peephole window, and lines that commit the window
first. A failure is handed to the caller and the run goes on; a violation ends the unit, so no run
contains one. Queries that leave a context as it is are not operations.
-/
namespace CilAssembly

/-- What a unit emits, before the peephole rules and the settling of jumps. -/
inductive Event
  /-- An instruction that goes through the window. -/
  | plain (i : Instruction)
  /-- A line other than a jump. It commits the window first. -/
  | line (line : Line)
  /-- A jump, as the front end asks for it. It commits the window first. -/
  | jump (opcode : Opcode) (label : Label)
  /-- The window is committed, and nothing else happens. -/
  | boundary
  /-- The rules are turned on or off. -/
  | setPeephole (enabled : Bool)
  deriving DecidableEq, Repr

namespace Event

def tokenLine (opcode : Opcode) (token : String) : Event :=
  .line (.instruction ⟨opcode, .token token⟩)

/-- An instruction on a token, where the program items give one. -/
def ofToken (opcode : Opcode) : Except Violation String → List Event
  | .ok token => [tokenLine opcode token]
  | .error _ => []

def directive (text : String) : Event :=
  .line (.directive text)

end Event

/-- The operations that only emit code. -/
inductive Emission
  | simple (opcode : Opcode)
  | withInt (opcode : Opcode) (value : Int)
  | withShort (opcode : Opcode) (value : Nat)
  | withWord (opcode : Opcode) (value : Nat)
  | withHex64 (opcode : Opcode) (value : UInt64)
  | arithmetic (opcode : Opcode) (unsigned : Bool)
  | loadInt32 (value : Int32)
  | loadInt64 (value : Int64)
  | loadFloat32 (value : Binary32)
  | loadFloat64 (value : Binary64)
  | loadString (text : String)
  | accessSlot (access : SlotAccess) (slot : Slot)
  | loadElement (element : CilType)
  | prepareStore (element : CilType)
  | commitStore (store : PendingStore)
  | loadIndirect (type : CilType)
  | storeIndirect (type : CilType)
  | callNamed (reference : String)
  | callVirtualNamed (reference : String)
  | call (method : MethodId) (callSite : Option Signature)
  | callVirtual (method : MethodId) (callSite : Option Signature)
  | callDeclared (method : MethodId)
  | construct (method : MethodId) (callSite : Option Signature)
  | constructNamed (className params : String)
  | constructDelegate (id : ClassId)
  | loadMethod (opcode : Opcode) (method : MethodId)
  | accessField (opcode : Opcode) (field : FieldId)
  | classNameToken (opcode : Opcode) (name : ClassName)
  | classToken (opcode : Opcode) (id : ClassId)
  | typeToken (opcode : Opcode) (type : CilType)
  | newVector (element : CilType)
  | newArray (array : CilType)
  | getElement (array : CilType)
  | setElement (array : CilType)
  | directive (text : String)
  | moduleHeader
  | beginClass (id : ClassId)
  | endClass

namespace Emission

def perform : Emission → Gen Unit
  | .simple opcode => Gen.simple opcode
  | .withInt opcode value => Gen.withInt opcode value
  | .withShort opcode value => Gen.withShort opcode value
  | .withWord opcode value => Gen.withWord opcode value
  | .withHex64 opcode value => Gen.withHex64 opcode value
  | .arithmetic opcode unsigned => Gen.arithmetic opcode unsigned
  | .loadInt32 value => Gen.loadInt32 value
  | .loadInt64 value => Gen.loadInt64 value
  | .loadFloat32 value => Gen.loadFloat32 value
  | .loadFloat64 value => Gen.loadFloat64 value
  | .loadString text => Gen.loadString text
  | .accessSlot access slot => Gen.accessSlot access slot
  | .loadElement element => Gen.loadElement element
  | .prepareStore element => do let _ ← Gen.prepareStore element
  | .commitStore store => Gen.commitStore store
  | .loadIndirect type => Gen.loadIndirect type
  | .storeIndirect type => Gen.storeIndirect type
  | .callNamed reference => Gen.callNamed reference
  | .callVirtualNamed reference => Gen.callVirtualNamed reference
  | .call method callSite => Gen.call method callSite
  | .callVirtual method callSite => Gen.callVirtual method callSite
  | .callDeclared method => Gen.callDeclared method
  | .construct method callSite => Gen.construct method callSite
  | .constructNamed className params => Gen.constructNamed className params
  | .constructDelegate id => Gen.constructDelegate id
  | .loadMethod opcode method => Gen.loadMethod opcode method
  | .accessField opcode field => Gen.accessField opcode field
  | .classNameToken opcode name => Gen.classNameToken opcode name
  | .classToken opcode id => Gen.classToken opcode id
  | .typeToken opcode type => Gen.typeToken opcode type
  | .newVector element => Gen.newVector element
  | .newArray array => Gen.newArray array
  | .getElement array => Gen.getElement array
  | .setElement array => Gen.setElement array
  | .directive text => Gen.directive text
  | .moduleHeader => Gen.moduleHeader
  | .beginClass id => Gen.beginClass id
  | .endClass => Gen.endClass

end Emission

/-- The line that opens the definition of a class under a name. -/
def ClassInfo.heading (info : ClassInfo) (visibility name : String) : String :=
  let (sealing, base) :=
    if info.isValueType then ("sealed ", ClassName.system "ValueType")
    else ("", ClassName.system "Object")
  ".class " ++ visibility ++ " auto ansi " ++ sealing ++ name ++ " extends " ++ base.render ++
    "\n\x7b"

namespace Image

/-- A call of the method as it was declared goes through its virtual slot. -/
def callsVirtually (image : Image) (method : MethodId) : Bool :=
  match image.getMethod method with
  | .ok info =>
    match image.getClass info.owner with
    | .ok owner => info.isVirtual && !owner.isValueType
    | .error _ => false
  | .error _ => false

/-- Accesses to the field are announced as volatile. -/
def isVolatile (image : Image) (field : FieldId) : Bool :=
  match image.getField field with
  | .ok info => info.isVolatile
  | .error _ => false

end Image

/-- What an emission emits, where it goes through. -/
def Emission.emits (c : Context) : Emission → List Event
  | .simple opcode => [.plain { opcode }]
  | .withInt opcode value => [.plain ⟨opcode, .int value⟩]
  | .withShort opcode value => [.plain ⟨opcode, .uint (value % 0x10000)⟩]
  | .withWord opcode value => [.plain ⟨opcode, .uint value⟩]
  | .withHex64 opcode value => [.plain ⟨opcode, .hex64 value⟩]
  | .arithmetic opcode unsigned =>
    [.plain { opcode := if c.lexical.checked then opcode.overflowChecked unsigned else opcode }]
  | .loadInt32 value => [.plain (Gen.int32Load value)]
  | .loadInt64 value =>
    if -0x80000000 ≤ value.toInt ∧ value.toInt < 0x80000000 then
      [.plain (Gen.int32Load value.toInt32), .plain { opcode := .convI8 }]
    else [.plain ⟨.ldcI8, .hex64 value.toUInt64⟩]
  | .loadFloat32 value => [.plain ⟨.ldcR4, .float32 value⟩]
  | .loadFloat64 value =>
    match value.narrow? with
    | some narrow => [.plain ⟨.ldcR4, .float32 narrow⟩]
    | none => [.plain ⟨.ldcR8, .float64 value⟩]
  | .loadString text => [.plain ⟨.ldstr, .text text⟩]
  | .accessSlot access slot => [.plain (access.instruction slot.index)]
  | .loadElement element =>
    match element.machineType.arrayLoad? with
    | some opcode => [.plain { opcode }]
    | none => [.tokenLine .ldelema element.token, .tokenLine .ldobj element.token]
  | .prepareStore element =>
    match element.machineType.arrayStore? with
    | some _ => []
    | none => [.tokenLine .ldelema element.token]
  | .commitStore store =>
    match store.element.machineType.arrayStore? with
    | some opcode => [.plain { opcode }]
    | none => [.tokenLine .stobj store.element.token]
  | .loadIndirect type =>
    match type.machineType.indirectLoad? with
    | some opcode => [.plain { opcode }]
    | none => [.tokenLine .ldobj type.token]
  | .storeIndirect type =>
    match type.machineType.indirectStore? with
    | some opcode => [.plain { opcode }]
    | none => [.tokenLine .stobj type.token]
  | .callNamed reference => [.tokenLine .call reference]
  | .callVirtualNamed reference => [.tokenLine .callvirt ("instance " ++ reference)]
  | .call method callSite => Event.ofToken .call (c.image.methodRef method callSite)
  | .callVirtual method callSite => Event.ofToken .callvirt (c.image.methodRef method callSite)
  | .callDeclared method =>
    Event.ofToken (if c.image.callsVirtually method then .callvirt else .call)
      (c.image.methodRef method none)
  | .construct method callSite => Event.ofToken .newobj (c.image.methodRef method callSite)
  | .constructNamed className params =>
    [.tokenLine .newobj ("instance void " ++ className ++ "::.ctor" ++ params)]
  | .constructDelegate id =>
    Event.ofToken .newobj ((c.image.className id).map fun name =>
      "instance void " ++ name.render ++ "::.ctor" ++
        "(class [.library]System.Object, native int)")
  | .loadMethod opcode method => Event.ofToken opcode (c.image.methodRef method none)
  | .accessField opcode field =>
    (if c.image.isVolatile field && opcode != .ldflda && opcode != .ldsflda then
      [.line (.instruction { opcode := .volatile })]
    else []) ++ Event.ofToken opcode (c.image.fieldRef field)
  | .classNameToken opcode name => [.tokenLine opcode name.render]
  | .classToken opcode id => Event.ofToken opcode ((c.image.className id).map ClassName.render)
  | .typeToken opcode type => [.tokenLine opcode type.token]
  | .newVector element =>
    [.tokenLine .newarr (match element.primitiveClass? with
      | some name => name.render
      | none => element.token)]
  | .newArray array =>
    [.tokenLine .newobj ("instance void " ++ array.render ++ "::.ctor" ++
      ("(" ++ ", ".intercalate (Gen.indexParams array.innermostArray.rank) ++ ")"))]
  | .getElement array =>
    match array.element? with
    | some element =>
      [.tokenLine .call ("instance " ++ element.render ++ " " ++ array.render ++ "::Get(" ++
        ", ".intercalate (Gen.indexParams array.rank) ++ ")")]
    | none => []
  | .setElement array =>
    match array.element? with
    | some element =>
      [.tokenLine .call ("instance void " ++ array.render ++ "::Set(" ++
        ", ".intercalate (Gen.indexParams array.rank ++ [element.render]) ++ ")")]
    | none => []
  | .directive text => [.directive text]
  | .moduleHeader =>
    let version := "\n\x7b\n\t.ver 0:0:0:0\n\x7d"
    [.directive (".assembly extern " ++ Identifier.quote libraryScope ++ version),
     .directive (".assembly " ++ Identifier.quote c.assemblyName ++ version),
     .directive (".module " ++ Identifier.quote (c.assemblyName ++ ".exe"))]
  | .beginClass id =>
    match c.image.getClass id with
    | .ok info =>
      match info.enclosing, c.image.className id with
      | some _, _ => [.directive (info.heading "nested public" (Identifier.quote info.name))]
      | none, .ok name => [.directive (info.heading "public" name.render)]
      | none, .error _ => []
    | .error _ => []
  | .endClass => [.directive "\x7d"]

/-- The operations that emit nothing and leave labels and methods alone: on program items, scopes,
bindings, the lexical context, diagnostics and the stack counters. -/
inductive Bookkeeping
  | addClass (space : Option String) (name : String)
  | addNestedClass (enclosing : ClassId) (name : String)
  | importClass (scope space name : String)
  | addMethod (owner : ClassId) (name : String) (signature : Signature)
  | addField (owner : ClassId) (name : String) (type : CilType)
  | addMember (owner : ClassId) (name : String) (kind : MemberKind)
  | modifyClass (id : ClassId) (f : ClassInfo → ClassInfo)
  | modifyMethod (id : MethodId) (f : MethodInfo → MethodInfo)
  | modifyField (id : FieldId) (f : FieldInfo → FieldInfo)
  | createScope (parent : ScopeId) (kind : ScopeKind)
  | declare (scope : ScopeId) (name : String) (item : Item)
  | bindItem (item : Item) (node : NodeId)
  | enterItem (tree : SyntaxTree) (item : Item)
  | leaveItem (before : Lexical)
  | enterOverflow (checked : Bool)
  | leaveOverflow (before : Lexical)
  | setLexical (lexical : Lexical)
  | setCheckedByDefault (checked : Bool)
  | setAssemblyName (name : String)
  | report (severity : Severity) (location : Location) (message : String)
  | setListener (severity : Severity) (on : Bool)
  | adjust (delta : Int)
  | extend (extra : Nat)

def Bookkeeping.perform : Bookkeeping → Gen Unit
  | .addClass space name => do let _ ← Gen.addClass space name
  | .addNestedClass enclosing name => do let _ ← Gen.addNestedClass enclosing name
  | .importClass scope space name => do let _ ← Gen.importClass scope space name
  | .addMethod owner name signature => do let _ ← Gen.addMethod owner name signature
  | .addField owner name type => do let _ ← Gen.addField owner name type
  | .addMember owner name kind => do let _ ← Gen.addMember owner name kind
  | .modifyClass id f => Gen.modifyClass id f
  | .modifyMethod id f => Gen.modifyMethod id f
  | .modifyField id f => Gen.modifyField id f
  | .createScope parent kind => do let _ ← Gen.createScope parent kind
  | .declare scope name item => do let _ ← Gen.declare scope name item
  | .bindItem item node => Gen.bindItem item node
  | .enterItem tree item => do let _ ← Gen.enterItem tree item
  | .leaveItem before => Gen.leaveItem before
  | .enterOverflow checked => do let _ ← Gen.enterOverflow checked
  | .leaveOverflow before => Gen.leaveOverflow before
  | .setLexical lexical => Gen.modifyLexical fun _ => lexical
  | .setCheckedByDefault checked => modify fun c => { c with checkedByDefault := checked }
  | .setAssemblyName name => modify fun c => { c with assemblyName := name }
  | .report severity location message => Gen.report severity location message
  | .setListener severity on =>
    modify fun c => { c with reporter := c.reporter.setListener severity on }
  | .adjust delta => Gen.adjust delta
  | .extend extra => Gen.extend extra

/-- The operations on a unit. -/
inductive Operation
  | emit (e : Emission)
  | keep (b : Bookkeeping)
  | flush
  | readListing
  | setPeephole (enabled : Bool)
  | newLabel (leave : Bool)
  | jump (opcode : Opcode) (label : Label)
  | place (label : Label) (leave : Bool)
  | beginSwitch
  | switchTarget (label : Label) (first : Bool)
  | endSwitch
  | beginMethod (method : MethodId)
  | endMethod
  | allocLocal (type : CilType) (name : Option String)

/-- The line that opens the body of a method. -/
def MethodInfo.heading (info : MethodInfo) : String :=
  let attributes :=
    if info.isStatic then "static " else if info.isVirtual then "virtual " else ""
  ".method public " ++ attributes ++ "hidebysig " ++ info.signature.result.render ++ " " ++
    Identifier.quote info.name ++ "(" ++ CilType.renderList info.signature.params ++
    ") cil managed\n\x7b"

/-- The line that declares a local. -/
def localDeclaration (type : CilType) (name : Option String) : String :=
  let suffix := match name with
    | some name => " '" ++ name ++ "'"
    | none => ""
  "\t.locals init\t(" ++ type.render ++ suffix ++ ")"

namespace Operation

/-- Performs an operation. Returns the label that it hands out, if it does. -/
def perform : Operation → Gen (Option Label)
  | .emit e => do e.perform; return none
  | .keep b => do b.perform; return none
  | .flush => do Gen.flush; return none
  | .readListing => do let _ ← Gen.currentListing; return none
  | .setPeephole enabled => do Gen.setPeephole enabled; return none
  | .newLabel leave => some <$> Gen.newLabelOf leave
  | .jump opcode label => do Gen.jump opcode label; return none
  | .place label leave => do Gen.placeAs leave label; return none
  | .beginSwitch => do Gen.beginSwitch; return none
  | .switchTarget label first => do Gen.switchTarget label first; return none
  | .endSwitch => do Gen.endSwitch; return none
  | .beginMethod method => do Gen.beginMethod method; return none
  | .endMethod => do Gen.endMethod; return none
  | .allocLocal type name => do let _ ← Gen.allocLocal type name; return none

/-- What an operation emits, where it goes through. -/
def emits (c : Context) : Operation → List Event
  | .emit e => e.emits c
  | .keep _ => []
  | .flush | .readListing => [.boundary]
  | .setPeephole enabled => [.setPeephole enabled]
  | .newLabel _ => []
  | .jump opcode label => [.jump opcode label]
  | .place label leave => [.line (.label label.id leave)]
  | .beginSwitch => [.boundary]
  | .switchTarget .. => []
  | .endSwitch =>
    match c.labels.switch with
    | some targets => [.line (.instruction ⟨.switch, .switch targets.toList⟩)]
    | none => []
  | .beginMethod method =>
    match c.image.getMethod method with
    | .ok info =>
      .directive info.heading ::
        if info.isEntryPoint then [.directive "\t.entrypoint"] else []
    | .error _ => []
  | .endMethod => [.directive ("\t.maxstack " ++ toString c.stack.peak ++ "\n\x7d")]
  | .allocLocal type name => [.directive (localDeclaration type name)]

/-- The labels that an operation is given. -/
def labels : Operation → List Label
  | .jump _ label => [label]
  | .place label _ => [label]
  | .switchTarget label _ => [label]
  | _ => []

/-- The label that an operation places, and whether as a leave target. -/
def placement? : Operation → Option (LabelId × Bool)
  | .place label leave => some (label.id, leave)
  | _ => none

end Operation

/-- What has happened to a unit: the operations so far, the labels that they handed out and what
they emitted. -/
structure History where
  operations : List Operation := []
  labels : List Label := []
  events : List Event := []

namespace History

def record (history : History) (op : Operation) (label : Option Label) (events : List Event) :
    History where
  operations := history.operations ++ [op]
  labels := history.labels ++ label.toList
  events := history.events ++ events

/-- The labels placed so far, with how each was placed. -/
def placements (history : History) : List (LabelId × Bool) :=
  history.operations.filterMap Operation.placement?

end History

/-- Performing one operation. An operation that fails emits nothing. -/
inductive Step (c : Context) (op : Operation) : Option Label → List Event → Context → Prop
  | done {label : Option Label} {d : Context} (performed : op.perform c = .ok label d) :
      Step c op label (op.emits c) d
  | refused {f : Failure} {d : Context} (performed : op.perform c = .error (.failure f) d) :
      Step c op none [] d

/-- Performing operations one after another from a context on. Each obeys a rule, which may depend
on what happened before it. -/
inductive Run (rule : History → Operation → Prop) (b : Context) : History → Context → Prop
  | start : Run rule b {} b
  | step {history : History} {c : Context} {op : Operation} {label : Option Label}
      {events : List Event} {d : Context} (run : Run rule b history c) (allowed : rule history op)
      (step : Step c op label events d) : Run rule b (history.record op label events) d

/-- Any operation may follow. -/
def AnyOperation (_ : History) (_ : Operation) : Prop :=
  True

/-- The operation uses only labels that were handed out before. -/
def UsesOwnLabels (history : History) (op : Operation) : Prop :=
  ∀ label ∈ op.labels, label ∈ history.labels

instance : DecidableRel AnyOperation :=
  fun _ _ => .isTrue trivial

instance : DecidableRel UsesOwnLabels :=
  fun history op => inferInstanceAs (Decidable (∀ label ∈ op.labels, label ∈ history.labels))

/-- Performs operations one after another, and stops at one that is violated or breaks the rule. -/
def replay (rule : History → Operation → Prop) [DecidableRel rule] (history : History)
    (c : Context) : List Operation → Option (History × Context)
  | [] => some (history, c)
  | op :: ops =>
    if rule history op then
      match op.perform c with
      | .ok label d => replay rule (history.record op label (op.emits c)) d ops
      | .error (.failure _) d => replay rule (history.record op none []) d ops
      | .error (.violation _) _ => none
    else none

namespace Run
variable {rule rule' : History → Operation → Prop} {b c d : Context} {history history' : History}

/-- Replaying operations after a run continues it. -/
lemma replay [DecidableRel rule] (run : Run rule b history c) {ops : List Operation}
    (h : replay rule history c ops = some (history', d)) : Run rule b history' d := by
  induction ops generalizing history c with
  | nil =>
    cases h
    exact run
  | cons op ops ih =>
    unfold CilAssembly.replay at h
    split at h
    case isFalse => cases h
    case isTrue allowed =>
      split at h
      case h_1 performed => exact ih (run.step allowed (.done performed)) h
      case h_2 performed => exact ih (run.step allowed (.refused performed)) h
      case h_3 => cases h

/-- A run that obeys a rule obeys every weaker one. -/
lemma mono (run : Run rule b history c)
    (hrule : ∀ history op, rule history op → rule' history op) : Run rule' b history c := by
  induction run with
  | start => exact .start
  | step _ allowed step ih => exact .step ih (hrule _ _ allowed) step

end Run

end CilAssembly
