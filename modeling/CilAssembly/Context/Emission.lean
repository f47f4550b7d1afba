import CilAssembly.Context

/-!
Emission of instructions and directives. Plain instructions go through the peephole window; calls,
tokens and directives commit it first.
-/
namespace CilAssembly.Gen

def simple (opcode : Opcode) : Gen Unit :=
  enqueue { opcode }

/-- An instruction with a signed operand. -/
def withInt (opcode : Opcode) (value : Int) : Gen Unit :=
  enqueue ⟨opcode, .int value⟩

/-- An instruction with a 16-bit operand: only the low 16 bits of the value count. -/
def withShort (opcode : Opcode) (value : Nat) : Gen Unit :=
  enqueue ⟨opcode, .uint (value % 0x10000)⟩

/-- An instruction with an unsigned operand. -/
def withWord (opcode : Opcode) (value : Nat) : Gen Unit :=
  enqueue ⟨opcode, .uint value⟩

/-- An instruction with a 64-bit operand. -/
def withHex64 (opcode : Opcode) (value : UInt64) : Gen Unit :=
  enqueue ⟨opcode, .hex64 value⟩

/-- An arithmetic or conversion opcode, in its trapping form where arithmetic is checked. -/
def arithmetic (opcode : Opcode) (unsigned : Bool) : Gen Unit := do
  simple (if (← get).lexical.checked then opcode.overflowChecked unsigned else opcode)

/-- The shortest instruction that pushes a 32-bit constant. -/
def int32Load (value : Int32) : Instruction :=
  match value.toInt with
  | -1 => { opcode := .ldcI4M1 }
  | 0 => { opcode := .ldcI4_0 }
  | 1 => { opcode := .ldcI4_1 }
  | 2 => { opcode := .ldcI4_2 }
  | 3 => { opcode := .ldcI4_3 }
  | 4 => { opcode := .ldcI4_4 }
  | 5 => { opcode := .ldcI4_5 }
  | 6 => { opcode := .ldcI4_6 }
  | 7 => { opcode := .ldcI4_7 }
  | 8 => { opcode := .ldcI4_8 }
  | v => ⟨if -128 ≤ v ∧ v ≤ 127 then .ldcI4S else .ldcI4, .int v⟩

def loadInt32 (value : Int32) : Gen Unit :=
  enqueue (int32Load value)

/-- Pushes a 64-bit constant. One that fits in 32 bits is pushed as such and widened. -/
def loadInt64 (value : Int64) : Gen Unit := do
  if -0x80000000 ≤ value.toInt ∧ value.toInt < 0x80000000 then
    loadInt32 value.toInt32
    simple .convI8
  else withHex64 .ldcI8 value.toUInt64

def loadFloat32 (value : Binary32) : Gen Unit :=
  enqueue ⟨.ldcR4, .float32 value⟩

/-- Pushes a double precision constant, in single precision where that is exact. -/
def loadFloat64 (value : Binary64) : Gen Unit :=
  match value.narrow? with
  | some narrow => loadFloat32 narrow
  | none => enqueue ⟨.ldcR8, .float64 value⟩

def loadString (text : String) : Gen Unit :=
  enqueue ⟨.ldstr, .text text⟩

/-- Calls a method given by its reference. -/
def callNamed (reference : String) : Gen Unit :=
  tokenBarrier .call reference

/-- Calls an instance method through its virtual slot, given by its reference. -/
def callVirtualNamed (reference : String) : Gen Unit :=
  tokenBarrier .callvirt ("instance " ++ reference)

/-- An instruction on a method reference, with a call-site signature if the call needs one. -/
def methodToken (opcode : Opcode) (method : MethodId) (callSite : Option Signature) : Gen Unit := do
  tokenBarrier opcode (← readImage (·.methodRef method callSite))

def call (method : MethodId) (callSite : Option Signature) : Gen Unit :=
  methodToken .call method callSite

def callVirtual (method : MethodId) (callSite : Option Signature) : Gen Unit :=
  methodToken .callvirt method callSite

/-- Calls a method as it was declared: virtual methods of reference types through `callvirt`, all
others directly. -/
def callDeclared (method : MethodId) : Gen Unit := do
  let info ← readImage (·.getMethod method)
  if info.isVirtual && !(← readImage (·.getClass info.owner)).isValueType then
    callVirtual method none
  else call method none

/-- Allocates an object with a constructor. -/
def construct (method : MethodId) (callSite : Option Signature) : Gen Unit :=
  methodToken .newobj method callSite

/-- Allocates an object of a named class; the constructor is given by its parameter list with the
parentheses. -/
def constructNamed (className params : String) : Gen Unit :=
  tokenBarrier .newobj ("instance void " ++ className ++ "::.ctor" ++ params)

/-- Allocates a delegate from an object and a function pointer. -/
def constructDelegate (id : ClassId) : Gen Unit := do
  constructNamed (← readImage (·.className id)).render
    "(class [.library]System.Object, native int)"

/-- Loads a pointer to a method. -/
def loadMethod (opcode : Opcode) (method : MethodId) : Gen Unit :=
  methodToken opcode method none

/-- Accesses a field. A volatile field is announced as such, unless only its address is taken. -/
def accessField (opcode : Opcode) (field : FieldId) : Gen Unit := do
  let token ← readImage (·.fieldRef field)
  let info ← readImage (·.getField field)
  if info.isVolatile && opcode != .ldflda && opcode != .ldsflda then
    barrier { opcode := .volatile }
  tokenBarrier opcode token

def classNameToken (opcode : Opcode) (name : ClassName) : Gen Unit :=
  tokenBarrier opcode name.render

def classToken (opcode : Opcode) (id : ClassId) : Gen Unit := do
  classNameToken opcode (← readImage (·.className id))

def typeToken (opcode : Opcode) (type : CilType) : Gen Unit :=
  tokenBarrier opcode type.token

/-- Allocates a vector. Primitive element types go by their class. -/
def newVector (element : CilType) : Gen Unit :=
  match element.primitiveClass? with
  | some name => classNameToken .newarr name
  | none => typeToken .newarr element

/-- One `int32` parameter a dimension. -/
def indexParams (rank : Nat) : List String :=
  List.replicate rank "int32"

/-- Allocates an array of any rank: one length a dimension of its innermost array. -/
def newArray (array : CilType) : Gen Unit :=
  constructNamed array.render
    ("(" ++ ", ".intercalate (indexParams array.innermostArray.rank) ++ ")")

/-- Reads an element of an array of any rank. -/
def getElement (array : CilType) : Gen Unit :=
  match array.element? with
  | some element =>
    tokenBarrier .call ("instance " ++ element.render ++ " " ++ array.render ++ "::Get(" ++
      ", ".intercalate (indexParams array.rank) ++ ")")
  | none => violate .notAnArray

/-- Writes an element of an array of any rank. -/
def setElement (array : CilType) : Gen Unit :=
  match array.element? with
  | some element =>
    tokenBarrier .call ("instance void " ++ array.render ++ "::Set(" ++
      ", ".intercalate (indexParams array.rank ++ [element.render]) ++ ")")
  | none => violate .notAnArray

/-- The declarations of the library, the assembly and the module that open a listing. -/
def moduleHeader : Gen Unit := do
  let name := (← get).assemblyName
  let version := "\n\x7b\n\t.ver 0:0:0:0\n\x7d"
  directive (".assembly extern " ++ Identifier.quote libraryScope ++ version)
  directive (".assembly " ++ Identifier.quote name ++ version)
  directive (".module " ++ Identifier.quote (name ++ ".exe"))

/-- Opens the definition of a class. A nested class is opened inside the one around it and goes by
its simple name. -/
def beginClass (id : ClassId) : Gen Unit := do
  let info ← readImage (·.getClass id)
  let heading ← match info.enclosing with
    | some _ => pure ("nested public", Identifier.quote info.name)
    | none => pure ("public", (← readImage (·.className id)).render)
  let (sealing, base) :=
    if info.isValueType then ("sealed ", ClassName.system "ValueType")
    else ("", ClassName.system "Object")
  directive (".class " ++ heading.1 ++ " auto ansi " ++ sealing ++ heading.2 ++ " extends " ++
    base.render ++ "\n\x7b")

/-- Closes the definition that was opened last. -/
def endClass : Gen Unit :=
  directive "\x7d"

end CilAssembly.Gen
