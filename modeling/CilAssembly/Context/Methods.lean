import CilAssembly.Context

/-! Method bodies and their slots: arguments come from the signature, locals are allocated one by one. -/
namespace CilAssembly

/-- A slot with a number, of which the 16 bits are kept that instructions can hold. -/
def Slot.new (index : Nat) (type : CilType) : Slot :=
  { index := index % 0x10000, type }

/-- Slots for types, numbered from zero. -/
def Slot.ofTypes (types : List CilType) : Array Slot :=
  (types.zipIdx.map fun (type, index) => Slot.new index type).toArray

namespace Gen

/-- Opens the body of a method. -/
def beginMethod (method : MethodId) : Gen Unit := do
  if (← get).frame.isSome then violate .nestedMethods
  let info ← readImage (·.getMethod method)
  let this ←
    if info.signature.hasThis then pure [← readImage (·.classType info.owner)] else pure []
  let types := this ++ info.signature.params
  if maxSlots < types.length then fail (.tooManyArguments info.name)
  let attributes :=
    if info.isStatic then "static " else if info.isVirtual then "virtual " else ""
  directive (".method public " ++ attributes ++ "hidebysig " ++ info.signature.result.render ++ " " ++
    Identifier.quote info.name ++ "(" ++ CilType.renderList info.signature.params ++
    ") cil managed\n\x7b")
  if info.isEntryPoint then directive "\t.entrypoint"
  modify fun c =>
    { c with
      stack := {}
      frame := some { method, args := Slot.ofTypes types, start := c.listing.size } }

/-- Closes the body of the current method: settles its open jumps and writes its stack limit. -/
def endMethod : Gen Unit := do
  flush
  match (← get).frame with
  | none => violate .noMethodToEnd
  | some frame =>
    modify fun c => { c with frame := none }
    let info ← readImage (·.getMethod frame.method)
    orViolate ((← get).labels.checkComplete (.method info.name))
    modify fun c =>
      { c with listing := c.listing.resolveFrom frame.start c.labels.isLeaveTarget }
    directive ("\t.maxstack " ++ toString (← get).stack.peak ++ "\n\x7d")

/-- Allocates a local variable and declares it in the listing. -/
def allocLocal (type : CilType) (name : Option String) : Gen Slot := do
  match (← get).frame with
  | none => violate .localOutsideMethod
  | some frame =>
    let index := frame.locals.size
    if maxSlots ≤ index then
      fail (.tooManyLocals (← readImage (·.getMethod frame.method)).name)
    let slot := Slot.new index type
    modify fun c =>
      { c with frame := c.frame.map fun frame => { frame with locals := frame.locals.push slot } }
    let suffix := match name with
      | some name => " '" ++ name ++ "'"
      | none => ""
    directive ("\t.locals init\t(" ++ type.render ++ suffix ++ ")")
    return slot

/-- Reads the frame of the current method. -/
def readFrame {α : Type} (query : Frame → Except Violation α) : Gen α := do
  match (← get).frame with
  | none => violate .slotOutsideMethod
  | some frame => orViolate (query frame)

/-- An argument of the current method. The object of an instance method is argument zero. -/
def arg (index : Nat) : Gen Slot :=
  readFrame fun frame => fetch frame.args index

def argCount : Gen Nat :=
  readFrame fun frame => .ok frame.args.size

/-- A local of the current method. -/
def localSlot (index : Nat) : Gen Slot :=
  readFrame fun frame => fetch frame.locals index

def localCount : Gen Nat :=
  readFrame fun frame => .ok frame.locals.size

end Gen

end CilAssembly
