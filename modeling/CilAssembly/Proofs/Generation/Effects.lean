import CilAssembly.Proofs.Generation.Methods
import CilAssembly.Proofs.Generation.Operations

/-!
What one operation does to a context. Emissions carry their events out on the queue and the listing;
everything else is said once, operation by operation, so that facts about runs need no look into the
operations themselves.
-/
namespace CilAssembly

/-- The line that a jump is written on first. A jump that always jumps to a leave label is left
open. -/
def jumpLine (opcode : Opcode) (label : Label) : Line :=
  .instruction ⟨if label.leave && opcode.isUnconditionalBranch then .branchOrLeave else opcode,
    .target label.id⟩

namespace Context

/-- Turns the rules on or off. -/
def switched (c : Context) (enabled : Bool) : Context :=
  { c with
    queue := (c.queue.setEnabled enabled).1
    listing := c.listing.pushInstructions (c.queue.setEnabled enabled).2 }

/-- Settles the open jumps from a line on. -/
def resolved (c : Context) (start : Nat) : Context :=
  { c with listing := c.listing.resolveFrom start c.labels.isLeaveTarget }

/-- Carries an event out. -/
def emit (c : Context) : Event → Context
  | .plain i => c.enqueued i
  | .line line => c.flushed.appended [line]
  | .jump opcode label => c.flushed.appended [jumpLine opcode label]
  | .boundary => c.flushed
  | .setPeephole enabled => c.switched enabled

def emitted (c : Context) (events : List Event) : Context :=
  events.foldl emit c

@[simp] lemma emitted_nil (c : Context) : c.emitted [] = c := rfl

@[simp] lemma emitted_cons (c : Context) (event : Event) (events : List Event) :
    c.emitted (event :: events) = (c.emit event).emitted events := rfl

lemma emitted_append (c : Context) (events more : List Event) :
    c.emitted (events ++ more) = (c.emitted events).emitted more :=
  List.foldl_append

/-- Events change the queue and the listing only. -/
lemma emitted_eq (c : Context) (events : List Event) : c.emitted events =
    { c with queue := (c.emitted events).queue, listing := (c.emitted events).listing } := by
  induction events generalizing c with
  | nil => rfl
  | cons event events ih => cases event <;> exact ih _

section
variable (c : Context) (events : List Event)

@[simp] lemma labels_emitted : (c.emitted events).labels = c.labels := by rw [emitted_eq]
@[simp] lemma frame_emitted : (c.emitted events).frame = c.frame := by rw [emitted_eq]
@[simp] lemma image_emitted : (c.emitted events).image = c.image := by rw [emitted_eq]
end

/-- Nothing is emitted between two contexts, labels and the open method stay as they are, and no
method disappears. -/
structure Keeps (c d : Context) : Prop where
  queue : d.queue = c.queue
  listing : d.listing = c.listing
  labels : d.labels = c.labels
  frame : d.frame = c.frame
  methods : c.image.methods.size ≤ d.image.methods.size

lemma Keeps.refl (c : Context) : c.Keeps c :=
  ⟨rfl, rfl, rfl, rfl, le_rfl⟩

lemma Keeps.trans {c d e : Context} (h : c.Keeps d) (h' : d.Keeps e) : c.Keeps e :=
  ⟨h'.queue.trans h.queue, h'.listing.trans h.listing, h'.labels.trans h.labels,
    h'.frame.trans h.frame, h.methods.trans h'.methods⟩

end Context

namespace Gen
variable {α β : Type}

/-- A step that goes through satisfies a condition. It may end in a violation, but never fails. -/
def Ensures (x : Gen α) (c : Context) (post : α → Context → Prop) : Prop :=
  match x c with
  | .ok a d => post a d
  | .error (.violation _) _ => True
  | .error (.failure _) _ => False

namespace Ensures
variable {c : Context} {post : α → Context → Prop} {x : Gen α}

lemma of_ok {a : α} {d : Context} (h : x c = .ok a d) (hpost : post a d) : x.Ensures c post := by
  rwa [Ensures, h]

lemma done {a : α} {d : Context} (h : x.Ensures c post) (hok : x c = .ok a d) : post a d := by
  rwa [Ensures, hok] at h

/-- A step that cannot satisfy its condition ends in a violation. -/
lemma violates (h : x.Ensures c post) (hpost : ∀ a d, ¬post a d) :
    ∃ v d, x c = .error (.violation v) d := by
  unfold Ensures at h
  split at h
  case h_1 => exact absurd h (hpost _ _)
  case h_2 v d heq => exact ⟨v, d, heq⟩
  case h_3 => exact h.elim

lemma violate (v : Violation) : (Gen.violate v : Gen α).Ensures c post :=
  True.intro

lemma orViolate {check : Except Violation α} (h : ∀ a, check = .ok a → post a c) :
    (Gen.orViolate check).Ensures c post := by
  cases check with
  | ok a => exact h a rfl
  | error v => exact .violate v

lemma readImage {query : Image → Except Violation α} (h : ∀ a, query c.image = .ok a → post a c) :
    (Gen.readImage query).Ensures c post :=
  .orViolate h

lemma mono {post' : α → Context → Prop} (h : x.Ensures c post)
    (hpost : ∀ a d, post a d → post' a d) : x.Ensures c post' := by
  unfold Ensures at h ⊢
  split
  case h_1 heq =>
    rw [heq] at h
    exact hpost _ _ h
  case h_2 => trivial
  case h_3 heq => rwa [heq] at h

lemma bind {f : α → Gen β} {post' : β → Context → Prop} (h : x.Ensures c post)
    (hf : ∀ a d, post a d → (f a).Ensures d post') : (x >>= f).Ensures c post' := by
  unfold Ensures at h
  split at h
  case h_1 a d heq =>
    have hbind : (x >>= f) c = f a d := by rw [bind_apply, heq]
    unfold Ensures at hf ⊢
    rw [hbind]
    exact hf a d h
  case h_2 heq => simp only [Ensures, bind_apply, heq]
  case h_3 => exact h.elim

lemma get_bind {f : Context → Gen α} (h : (f c).Ensures c post) : (get >>= f).Ensures c post :=
  h

lemma modify_bind {g : Context → Context} {f : Unit → Gen α} (h : (f ()).Ensures (g c) post) :
    (modify g >>= f).Ensures c post :=
  h

end Ensures

/-- A step carries events out and does nothing else. -/
def Emits (x : Gen α) (c : Context) (events : List Event) : Prop :=
  x.Ensures c fun _ d => d = c.emitted events

namespace Emits
variable {c : Context} {events more : List Event} {x : Gen α} {f : α → Gen β}

lemma pure (a : α) : (Pure.pure a : Gen α).Emits c [] :=
  .of_ok rfl rfl

lemma enqueue (i : Instruction) : (Gen.enqueue i).Emits c [.plain i] :=
  .of_ok rfl rfl

lemma appendLine (line : Line) : (Gen.appendLine line).Emits c [.line line] :=
  .of_ok (appendLine_apply line c) rfl

lemma violate (v : Violation) : (Gen.violate v : Gen α).Emits c events :=
  Ensures.violate v

lemma violate_bind (v : Violation) (f : α → Gen β) : (Gen.violate v >>= f).Emits c events :=
  True.intro

lemma bind (hx : x.Emits c events) (hf : ∀ a, (f a).Emits (c.emitted events) more) :
    (x >>= f).Emits c (events ++ more) := by
  refine Ensures.bind hx ?_
  rintro a d rfl
  refine (hf a).mono ?_
  rintro b e rfl
  exact (Context.emitted_append ..).symm

/-- The answer of a step may be dropped. -/
lemma discard (hx : x.Emits c events) : (do let _ ← x : Gen Unit).Emits c events := by
  have hbind := hx.bind fun _ => Emits.pure ()
  rwa [List.append_nil] at hbind

/-- What is read from the program items goes into what is emitted. -/
lemma readImage_bind {query : Image → Except Violation α}
    (hf : ∀ a, query c.image = .ok a → (f a).Emits c events) :
    (Gen.readImage query >>= f).Emits c events := by
  have hread : (Gen.readImage query).Ensures c fun a d => d = c ∧ query c.image = .ok a :=
    .readImage fun a ha => ⟨rfl, ha⟩
  refine hread.bind ?_
  rintro a d ⟨rfl, ha⟩
  exact hf a ha

lemma get_bind {f : Context → Gen β} (hf : (f c).Emits c events) : (get >>= f).Emits c events :=
  hf

end Emits

lemma emits_tokenBarrier (opcode : Opcode) (token : String) (c : Context) :
    (tokenBarrier opcode token).Emits c [.tokenLine opcode token] :=
  .appendLine _

lemma emits_directive (text : String) (c : Context) :
    (directive text).Emits c [.directive text] :=
  .appendLine _

lemma emits_readToken {opcode : Opcode} {query : Image → Except Violation α} {f : α → String}
    (c : Context) :
    (do tokenBarrier opcode (f (← readImage query))).Emits c
      (Event.ofToken opcode ((query c.image).map f)) := by
  refine .readImage_bind ?_
  intro a ha
  rw [ha]
  exact emits_tokenBarrier opcode (f a) c

lemma emits_methodToken (opcode : Opcode) (method : MethodId) (callSite : Option Signature)
    (c : Context) :
    (methodToken opcode method callSite).Emits c
      (Event.ofToken opcode (c.image.methodRef method callSite)) := by
  refine .readImage_bind ?_
  intro token htoken
  rw [htoken]
  exact emits_tokenBarrier opcode token c

/-- An access that has an opcode of its own for most machine types, and goes through the address of
a structure. -/
lemma emits_access {opcode? : Option Opcode} {isStructure : Bool} {x : Gen Unit} {v : Violation}
    {c : Context} {events : List Event} (hx : x.Emits c events) :
    (match opcode? with
      | some opcode => simple opcode
      | none => if isStructure then x else violate v).Emits c
      (match opcode? with
        | some opcode => [.plain { opcode }]
        | none => events) := by
  cases opcode? with
  | some opcode => exact .enqueue _
  | none =>
    cases isStructure with
    | true => exact hx
    | false => exact .violate v

lemma emits_prepareStore (element : CilType) (c : Context) :
    (prepareStore element).Emits c
      (match element.machineType.arrayStore? with
        | some _ => []
        | none => [.tokenLine .ldelema element.token]) := by
  unfold prepareStore
  cases element.machineType.arrayStore? with
  | some opcode => exact .pure _
  | none =>
    simp only [Option.isNone_none, if_true]
    split
    · exact .bind (emits_tokenBarrier ..) fun _ => .pure _
    · exact .violate_bind _ _

end Gen

/-- An emission carries out what it is said to emit. -/
theorem Emission.emits_perform (e : Emission) (c : Context) : e.perform.Emits c (e.emits c) := by
  cases e with
  | simple | withInt | withShort | withWord | withHex64 | arithmetic | loadInt32 | loadFloat32
  | loadString | accessSlot => exact .enqueue _
  | loadInt64 value =>
    simp only [perform, Gen.loadInt64, emits]
    split
    · exact .bind (.enqueue _) fun _ => .enqueue _
    · exact .enqueue _
  | loadFloat64 value =>
    simp only [perform, Gen.loadFloat64, emits]
    cases value.narrow? <;> exact .enqueue _
  | loadElement element =>
    exact Gen.emits_access (.bind (Gen.emits_tokenBarrier ..) fun _ => Gen.emits_tokenBarrier ..)
  | prepareStore element => exact (Gen.emits_prepareStore element c).discard
  | commitStore store =>
    simp only [perform, Gen.commitStore, emits]
    cases store.element.machineType.arrayStore? with
    | some opcode => exact .enqueue _
    | none => exact Gen.emits_tokenBarrier ..
  | loadIndirect type => exact Gen.emits_access (Gen.emits_tokenBarrier ..)
  | storeIndirect type => exact Gen.emits_access (Gen.emits_tokenBarrier ..)
  | callNamed | callVirtualNamed | constructNamed | classNameToken | typeToken | newArray
  | directive | endClass => exact .appendLine _
  | call | callVirtual | construct | loadMethod => exact Gen.emits_methodToken ..
  | callDeclared method =>
    refine .readImage_bind fun info hinfo => .readImage_bind fun owner howner => ?_
    have hcalls : c.image.callsVirtually method = (info.isVirtual && !owner.isValueType) := by
      simp [Image.callsVirtually, hinfo, howner]
    rw [emits, hcalls]
    split <;> exact Gen.emits_methodToken ..
  | constructDelegate id => exact Gen.emits_readToken c
  | accessField opcode field =>
    refine .readImage_bind fun token htoken => .readImage_bind fun info hinfo => ?_
    have hvolatile : c.image.isVolatile field = info.isVolatile := by
      simp [Image.isVolatile, hinfo]
    rw [emits, hvolatile, htoken]
    split
    · exact .bind (.appendLine _) fun _ => Gen.emits_tokenBarrier ..
    · exact Gen.emits_tokenBarrier ..
  | classToken opcode id => exact Gen.emits_readToken c
  | newVector element =>
    simp only [perform, Gen.newVector, emits]
    cases element.primitiveClass? <;> exact .appendLine _
  | getElement array =>
    simp only [perform, Gen.getElement, emits]
    cases array.element? with
    | some element => exact .appendLine _
    | none => exact .violate _
  | setElement array =>
    simp only [perform, Gen.setElement, emits]
    cases array.element? with
    | some element => exact .appendLine _
    | none => exact .violate _
  | moduleHeader =>
    simp only [perform, Gen.moduleHeader, emits]
    refine .get_bind ?_
    have hthree (x y z : String) : (do Gen.directive x; Gen.directive y; Gen.directive z).Emits c
        [.directive x, .directive y, .directive z] :=
      (Gen.emits_directive x c).bind fun _ => (Gen.emits_directive y _).bind fun _ =>
        Gen.emits_directive z _
    exact hthree _ _ _
  | beginClass id =>
    refine .readImage_bind fun info hinfo => ?_
    simp only [emits, hinfo]
    cases info.enclosing with
    | some enclosing => exact Gen.emits_directive ..
    | none =>
      refine .readImage_bind fun name hname => ?_
      simp only [hname]
      exact Gen.emits_directive ..

namespace Gen
variable {α β : Type}

/-- A step emits nothing and leaves labels and methods alone. -/
def Silent (x : Gen α) : Prop :=
  ∀ c, x.Ensures c fun _ d => c.Keeps d

namespace Silent
variable {x : Gen α} {f : α → Gen β}

lemma pure (a : α) : (Pure.pure a : Gen α).Silent :=
  fun c => .of_ok rfl (.refl c)

lemma of_get : (get : Gen Context).Silent :=
  fun c => .of_ok rfl (.refl c)

lemma of_modify {f : Context → Context} (h : ∀ c : Context, c.Keeps (f c)) :
    (modify f : Gen Unit).Silent :=
  fun c => .of_ok rfl (h c)

lemma violate (v : Violation) : (Gen.violate v : Gen α).Silent :=
  fun _ => .violate v

lemma orViolate (check : Except Violation α) : (Gen.orViolate check).Silent :=
  fun c => .orViolate fun _ _ => .refl c

lemma readImage (query : Image → Except Violation α) : (Gen.readImage query).Silent :=
  fun c => .readImage fun _ _ => .refl c

lemma bind (hx : x.Silent) (hf : ∀ a, (f a).Silent) : (x >>= f).Silent := by
  intro c
  refine (hx c).bind ?_
  intro a d hkeeps
  exact (hf a d).mono fun _ _ => hkeeps.trans

end Silent

/-- A step answers and changes nothing. -/
def Reads (x : Gen α) : Prop :=
  ∀ c, x.Ensures c fun _ d => d = c

namespace Reads
variable {x : Gen α} {f : α → Gen β} {c : Context} {post : β → Context → Prop}

lemma orViolate (check : Except Violation α) : (Gen.orViolate check).Reads :=
  fun _ => .orViolate fun _ _ => rfl

lemma readImage (query : Image → Except Violation α) : (Gen.readImage query).Reads :=
  fun _ => .readImage fun _ _ => rfl

/-- What follows starts where the step did. -/
lemma bind (hx : x.Reads) (hf : ∀ a, (f a).Ensures c post) : (x >>= f).Ensures c post := by
  refine (hx c).bind ?_
  rintro a _ rfl
  exact hf a

end Reads

lemma reads_nodeOf (item : Item) : (nodeOf item).Reads :=
  fun _ => (Reads.readImage _).bind fun _ => .of_ok rfl rfl

lemma reads_surroundingClass (item : Item) : (surroundingClass item).Reads := by
  intro c
  unfold surroundingClass
  split
  · exact (Reads.readImage _).bind fun _ => .of_ok rfl rfl
  · exact Reads.readImage _ c

/-- What entering an item does to a context. -/
inductive Entry (c : Context) : Option Lexical → Context → Prop
  | unbound : Entry c none c
  | entered (lexical : Lexical) : Entry c (some c.lexical) { c with lexical }

/-- Entering an item changes the lexical context only, and hands the one before out. -/
lemma enterItem_ensures (tree : SyntaxTree) (item : Item) (c : Context) :
    (enterItem tree item).Ensures c (Entry c) := by
  unfold enterItem
  refine (reads_nodeOf item).bind fun node => ?_
  split
  case h_2 => exact .of_ok rfl .unbound
  case h_1 node =>
  refine .get_bind ((reads_surroundingClass item).bind fun owner => ?_)
  extract_lets rest
  have hrest (classNode : Option NodeId) : (rest classNode).Ensures c (Entry c) := by
    refine .modify_bind ?_
    extract_lets definition last
    have hlast (change : Option NodeKind) (lexical : Lexical) :
        (last change).Ensures { c with lexical } (Entry c) :=
      .modify_bind ((Reads.orViolate _).bind fun _ => .modify_bind (.of_ok rfl (.entered _)))
    split
    · exact (Reads.orViolate _).bind fun node => hlast (some node.kind) _
    · exact hlast none _
  split
  · exact (reads_nodeOf _).bind hrest
  · exact hrest none

lemma silent_enterItem (tree : SyntaxTree) (item : Item) : (enterItem tree item).Silent := by
  intro c
  refine (enterItem_ensures tree item c).mono ?_
  rintro _ _ ⟨⟩
  · exact .refl c
  · exact ⟨rfl, rfl, rfl, rfl, le_rfl⟩

lemma silent_adjust (delta : Int) : (adjust delta).Silent := by
  refine .bind .of_get fun c => ?_
  extract_lets height
  split
  · exact .violate _
  · split
    · exact .violate _
    · exact .of_modify fun _ => ⟨rfl, rfl, rfl, rfl, le_rfl⟩

lemma silent_extend (extra : Nat) : (extend extra).Silent := by
  refine .bind .of_get fun c => ?_
  extract_lets needed
  split
  · exact .violate _
  · exact .of_modify fun _ => ⟨rfl, rfl, rfl, rfl, le_rfl⟩

/-- A checked update of the program items changes nothing else. -/
lemma updateImage_ensures {α : Type} (check : Image → Except Violation α) (f : Image → Image)
    (c : Context) :
    (updateImage fun image => do let _ ← check image; return f image).Ensures c
      fun _ d => d = { c with image := f c.image } := by
  have hread : (readImage fun image => do let _ ← check image; return f image).Ensures c
      fun image d => d = c ∧ image = f c.image := by
    refine .readImage ?_
    intro image himage
    cases hcheck : check c.image with
    | error v => rw [hcheck] at himage; cases himage
    | ok a => rw [hcheck] at himage; cases himage; exact ⟨rfl, rfl⟩
  refine hread.bind ?_
  rintro image d ⟨rfl, rfl⟩
  exact .of_ok rfl rfl

/-- A checked update of the program items that keeps every method. -/
lemma silent_updateImage {α : Type} {check : Image → Except Violation α} {f : Image → Image}
    (h : ∀ image : Image, image.methods.size ≤ (f image).methods.size) :
    (updateImage fun image => do let _ ← check image; return f image).Silent := by
  intro c
  refine (updateImage_ensures check f c).mono ?_
  rintro _ _ rfl
  exact ⟨rfl, rfl, rfl, rfl, h _⟩

end Gen

theorem Bookkeeping.silent_perform (b : Bookkeeping) : b.perform.Silent := by
  cases b with
  | addClass | addNestedClass | importClass | addField | addMember | createScope =>
    exact fun c => .of_ok rfl ⟨rfl, rfl, rfl, rfl, le_rfl⟩
  | leaveItem | enterOverflow | leaveOverflow | setLexical | setCheckedByDefault | setAssemblyName
  | report | setListener =>
    exact fun c => .of_ok rfl ⟨rfl, rfl, rfl, rfl, le_rfl⟩
  | addMethod owner name signature =>
    exact fun c => .of_ok rfl ⟨rfl, rfl, rfl, rfl, by simp⟩
  | modifyClass | modifyField => exact Gen.silent_updateImage fun _ => le_rfl
  | modifyMethod id f => exact Gen.silent_updateImage fun _ => by simp
  | declare scope name item =>
    refine .bind (.bind .of_get fun c => .bind (.orViolate _) fun _ => ?_) fun _ => .pure _
    exact .bind (.of_modify fun _ => ⟨rfl, rfl, rfl, rfl, le_rfl⟩) fun _ => .pure _
  | bindItem item node =>
    exact .bind (.readImage _) fun _ => .of_modify fun _ => ⟨rfl, rfl, rfl, rfl, le_rfl⟩
  | enterItem tree item => exact .bind (Gen.silent_enterItem tree item) fun _ => .pure _
  | adjust delta => exact Gen.silent_adjust delta
  | extend extra => exact Gen.silent_extend extra

/-- What an operation does to a context that it goes through on, or is refused on. -/
inductive Effect (c : Context) : Operation → Option Label → List Event → Context → Prop
  | emit (e : Emission) : Effect c (.emit e) none (e.emits c) (c.emitted (e.emits c))
  | keep {b : Bookkeeping} {d : Context} (keeps : c.Keeps d) : Effect c (.keep b) none [] d
  | flush : Effect c .flush none [.boundary] c.flushed
  | readListing : Effect c .readListing none [.boundary] c.flushed
  | setPeephole (enabled : Bool) :
      Effect c (.setPeephole enabled) none [.setPeephole enabled] (c.switched enabled)
  | newLabel (leave : Bool) (room : c.labels.created < Labels.limit) :
      Effect c (.newLabel leave) (some ⟨c.labels.next, leave⟩) [] (c.labeled c.labels.add)
  | jump {opcode : Opcode} {label : Label} (branch : opcode.isBranch = true) :
      Effect c (.jump opcode label) none [.jump opcode label]
        (c.flushed.appended [jumpLine opcode label])
  | place {label : Label} {leave : Bool} (unplaced : c.labels.mark? label.id = some .unplaced) :
      Effect c (.place label leave) none [.line (.label label.id leave)]
        ((c.flushed.appended [.label label.id leave]).labeled (c.labels.place label.id leave))
  | beginSwitch (closed : c.labels.switch = none) :
      Effect c .beginSwitch none [.boundary]
        (c.flushed.labeled { c.labels with switch := some #[] })
  | switchTarget {label : Label} {first : Bool} {targets : Array LabelId}
      (opened : c.labels.switch = some targets) :
      Effect c (.switchTarget label first) none []
        (c.labeled { c.labels with switch := some (targets.push label.id) })
  | endSwitch {targets : Array LabelId} (opened : c.labels.switch = some targets) :
      Effect c .endSwitch none [.line (.instruction ⟨.switch, .switch targets.toList⟩)]
        ((c.flushed.appended [.instruction ⟨.switch, .switch targets.toList⟩]).labeled
          { c.labels with switch := none })
  | beginMethod {method : MethodId} {info : MethodInfo} (closed : c.frame = none)
      (found : c.image.getMethod method = .ok info) (frame : Frame) (of : frame.method = method) :
      Effect c (.beginMethod method) none ((Operation.beginMethod method).emits c)
        ((c.emitted ((Operation.beginMethod method).emits c)).entered frame)
  | endMethod {frame : Frame} {info : MethodInfo} (opened : c.frame = some frame)
      (found : c.image.getMethod frame.method = .ok info)
      (complete : c.labels.Complete) :
      Effect c .endMethod none (Operation.endMethod.emits c)
        ((c.flushed.left.resolved frame.start).emitted (Operation.endMethod.emits c))
  | allocLocal (type : CilType) (name : Option String) {frame : Frame}
      (opened : c.frame = some frame) (frame' : Frame) (same : frame'.method = frame.method) :
      Effect c (.allocLocal type name) none ((Operation.allocLocal type name).emits c)
        { c.emitted ((Operation.allocLocal type name).emits c) with frame := some frame' }
  | refused {op : Operation} (places : op.placement? = none) : Effect c op none [] c

/-- A method of the program takes arguments of given types: the object, where it is called on one,
and its parameters. -/
inductive Image.Takes (image : Image) (method : MethodId) (info : MethodInfo) : List CilType → Prop
  | params (found : image.getMethod method = .ok info) (plain : info.signature.hasThis = false) :
      Takes image method info info.signature.params
  | object {type : CilType} (found : image.getMethod method = .ok info)
      (hasThis : info.signature.hasThis = true) (object : image.classType info.owner = .ok type) :
      Takes image method info (type :: info.signature.params)

lemma Image.Takes.found {image : Image} {method : MethodId} {info : MethodInfo}
    {types : List CilType} (h : image.Takes method info types) :
    image.getMethod method = .ok info := by
  cases h <;> assumption

namespace Context

/-- Opens a method with arguments of given types. -/
def opened (c : Context) (method : MethodId) (types : List CilType) : Context :=
  let headed := c.emitted ((Operation.beginMethod method).emits c)
  headed.entered { method, args := Slot.ofTypes types, start := headed.listing.size }

/-- Adds a local to a method and declares it after what is committed. -/
def withLocal (c : Context) (frame : Frame) (type : CilType) (name : Option String) : Context :=
  { c.flushed.appended [.directive (localDeclaration type name)] with
    frame := some { frame with locals := frame.locals.push ⟨frame.locals.size, type⟩ } }

end Context

namespace Gen
variable {α β : Type}

/-- A step that goes through satisfies a condition; one that fails leaves the context as it was. -/
def Meets (x : Gen α) (c : Context) (post : α → Context → Prop) : Prop :=
  match x c with
  | .ok a d => post a d
  | .error (.violation _) _ => True
  | .error (.failure _) d => d = c

namespace Meets
variable {c : Context} {post : α → Context → Prop} {x : Gen α}

lemma of_ok {a : α} {d : Context} (h : x c = .ok a d) (hpost : post a d) : x.Meets c post := by
  rwa [Meets, h]

lemma of_violation {v : Violation} {d : Context} (h : x c = .error (.violation v) d) :
    x.Meets c post := by
  simp only [Meets, h]

lemma of_failure {f : Failure} (h : x c = .error (.failure f) c) : x.Meets c post := by
  simp only [Meets, h]

lemma of_ensures (h : x.Ensures c post) : x.Meets c post := by
  unfold Ensures at h
  unfold Meets
  split <;> simp_all

lemma returned {a : α} {d : Context} (h : x.Meets c post) (hx : x c = .ok a d) : post a d := by
  rwa [Meets, hx] at h

lemma failed {f : Failure} {d : Context} (h : x.Meets c post)
    (hx : x c = .error (.failure f) d) : d = c := by
  rwa [Meets, hx] at h

lemma mono {post' : α → Context → Prop} (h : x.Meets c post) (hpost : ∀ a d, post a d → post' a d) :
    x.Meets c post' := by
  unfold Meets at h ⊢
  cases hx : x c with
  | ok a d =>
    rw [hx] at h
    exact hpost a d h
  | error stop d =>
    rw [hx] at h
    cases stop with
    | violation v => trivial
    | failure f => exact h

lemma violate (v : Violation) : (Gen.violate v : Gen α).Meets c post :=
  True.intro

lemma fail (f : Failure) : (Gen.fail f : Gen α).Meets c post :=
  rfl

lemma get_bind {f : Context → Gen α} (h : (f c).Meets c post) : (get >>= f).Meets c post :=
  h

/-- What a step answers may be dropped. -/
lemma then_none {post : Option Label → Context → Prop} (h : x.Meets c fun _ d => post none d) :
    (do let _ ← x; return none : Gen (Option Label)).Meets c post := by
  unfold Meets at h ⊢
  rw [bind_apply]
  cases hx : x c with
  | ok a d =>
    rw [hx] at h
    exact h
  | error stop d =>
    rw [hx] at h
    cases stop with
    | violation v => trivial
    | failure f => exact h

end Meets

section
variable (c : Context)

lemma newLabelOf_meets (leave : Bool) :
    (some <$> newLabelOf leave).Meets c fun label d => Effect c (.newLabel leave) label [] d := by
  by_cases hroom : c.labels.created < Labels.limit
  · refine .of_ok ?_ (.newLabel leave hroom)
    rw [map_apply, newLabelOf_apply hroom]
  · refine .of_failure (f := .labelsExhausted) ?_
    rw [map_apply, newLabelOf_exhausted hroom]

lemma jump_meets (opcode : Opcode) (label : Label) :
    (jump opcode label).Meets c
      fun _ d => Effect c (.jump opcode label) none [.jump opcode label] d := by
  cases hbranch : opcode.isBranch with
  | true =>
    refine .of_ok (a := ()) ?_ (.jump hbranch)
    simp [jump, hbranch, barrier, jumpLine]
  | false =>
    refine .of_violation (v := .notABranch opcode) (d := c) ?_
    simp only [jump, hbranch]
    rfl

lemma placeAs_meets (label : Label) (leave : Bool) :
    (placeAs leave label).Meets c
      fun _ d => Effect c (.place label leave) none [.line (.label label.id leave)] d := by
  by_cases hmark : c.labels.mark? label.id = some .unplaced
  · exact .of_ok (placeAs_apply leave label hmark) (.place hmark)
  · obtain ⟨v, hviolates⟩ := placeAs_violates leave label hmark
    exact .of_violation hviolates

lemma beginSwitch_meets :
    beginSwitch.Meets c fun _ d => Effect c .beginSwitch none [.boundary] d := by
  cases hswitch : c.labels.switch with
  | none =>
    refine .of_ok (a := ()) ?_ (.beginSwitch hswitch)
    simp only [beginSwitch, bind_apply, get_apply, hswitch]
    rfl
  | some targets =>
    refine .of_violation (v := .nestedSwitch) (d := c) ?_
    simp only [beginSwitch, bind_apply, get_apply, hswitch]
    rfl

lemma switchTarget_meets (label : Label) (first : Bool) :
    (switchTarget label first).Meets c
      fun _ d => Effect c (.switchTarget label first) none [] d := by
  refine .get_bind ?_
  cases hswitch : c.labels.switch with
  | none => exact .violate _
  | some targets =>
    dsimp only
    split
    · exact .of_violation rfl
    · refine .of_ok (a := ()) ?_ (.switchTarget hswitch)
      simp only [modify_apply, hswitch]
      rfl

lemma endSwitch_meets :
    endSwitch.Meets c fun _ d => Effect c .endSwitch none (Operation.endSwitch.emits c) d := by
  refine .get_bind ?_
  cases hswitch : c.labels.switch with
  | none => exact .violate _
  | some targets =>
    rw [Operation.emits, hswitch]
    refine .of_ok (a := ()) ?_ (.endSwitch hswitch)
    simp only [bind_apply, modify_apply, barrier_apply]
    rfl

section
variable {c} {method : MethodId} {info : MethodInfo} {types : List CilType}

/-- The lines that open a method, and its frame. -/
lemma openMethod_apply (hinfo : c.image.getMethod method = .ok info) (types : List CilType) :
    (do
      directive info.heading
      if info.isEntryPoint then directive "\t.entrypoint"
      modify fun c =>
        { c with
          stack := {}
          frame := some { method, args := Slot.ofTypes types, start := c.listing.size } } :
        Gen Unit) c = .ok () (c.opened method types) := by
  simp only [bind_apply, directive_apply, Context.opened, Operation.emits, hinfo]
  cases info.isEntryPoint <;> rfl

/-- A known method is opened, unless it takes too many arguments. -/
lemma beginMethod_eq (hframe : c.frame = none) (h : c.image.Takes method info types) :
    beginMethod method c =
      if maxSlots < types.length then .error (.failure (.tooManyArguments info.name)) c
      else .ok () (c.opened method types) := by
  have hread : readImage (·.getMethod method) c = .ok info c := readImage_apply h.found
  cases h with
  | params hinfo hplain =>
    simp only [beginMethod, bind_apply, get_apply, pure_apply, hframe, hread, hplain,
      Option.isSome_none, Bool.false_eq_true, if_false, List.nil_append]
    split
    · rfl
    · exact openMethod_apply hinfo _
  | @object type hinfo hthis hobject =>
    have hclass : readImage (·.classType info.owner) c = .ok type c := readImage_apply hobject
    simp only [beginMethod, bind_apply, get_apply, pure_apply, hframe, hread, hthis, hclass,
      Option.isSome_none, Bool.false_eq_true, if_false, if_true, List.singleton_append]
    split
    · rfl
    · exact openMethod_apply hinfo _

/-- A method that is not known, or whose object is not, cannot be opened. -/
lemma beginMethod_violates (hframe : c.frame = none)
    (h : ¬∃ info types, c.image.Takes method info types) :
    ∃ v, beginMethod method c = .error (.violation v) c := by
  cases hinfo : c.image.getMethod method with
  | error v =>
    have hread : readImage (·.getMethod method) c = .error (.violation v) c :=
      readImage_violates hinfo
    refine ⟨v, ?_⟩
    simp only [beginMethod, bind_apply, get_apply, hframe, hread, Option.isSome_none,
      Bool.false_eq_true, if_false]
  | ok info =>
    have hread : readImage (·.getMethod method) c = .ok info c := readImage_apply hinfo
    cases hthis : info.signature.hasThis with
    | false => exact absurd ⟨info, _, .params hinfo hthis⟩ h
    | true =>
      cases hobject : c.image.classType info.owner with
      | ok type => exact absurd ⟨info, _, .object hinfo hthis hobject⟩ h
      | error v =>
        have hclass : readImage (·.classType info.owner) c = .error (.violation v) c :=
          readImage_violates hobject
        refine ⟨v, ?_⟩
        simp only [beginMethod, bind_apply, get_apply, hframe, hread, hthis, hclass,
          Option.isSome_none, Bool.false_eq_true, if_false, if_true]

end

/-- A method opens where it is known and its arguments can be addressed. -/
lemma beginMethod_opens (method : MethodId) :
    (beginMethod method).Meets c fun _ d => c.frame = none ∧ ∃ info types,
      c.image.Takes method info types ∧ types.length ≤ maxSlots ∧ d = c.opened method types := by
  cases hframe : c.frame with
  | some frame =>
    refine .of_violation (v := .nestedMethods) (d := c) ?_
    simp only [beginMethod, bind_apply, get_apply, hframe]
    rfl
  | none =>
    by_cases htakes : ∃ info types, c.image.Takes method info types
    · obtain ⟨info, types, htakes⟩ := htakes
      have hbegin := beginMethod_eq hframe htakes
      split at hbegin
      case isTrue => exact .of_failure hbegin
      case isFalse hroom =>
        exact .of_ok hbegin ⟨rfl, info, types, htakes, Nat.le_of_not_lt hroom, rfl⟩
    · obtain ⟨v, hviolates⟩ := beginMethod_violates hframe htakes
      exact .of_violation hviolates

lemma beginMethod_meets (method : MethodId) :
    (beginMethod method).Meets c
      fun _ d =>
        Effect c (.beginMethod method) none ((Operation.beginMethod method).emits c) d := by
  refine (beginMethod_opens c method).mono ?_
  rintro _ _ ⟨hframe, info, types, htakes, -, rfl⟩
  exact .beginMethod hframe htakes.found _ rfl

/-- A method ends where it is known and all labels are placed. -/
lemma endMethod_ensures :
    endMethod.Ensures c fun _ d => ∃ frame info, c.frame = some frame ∧
      c.image.getMethod frame.method = .ok info ∧ c.labels.Complete ∧
      d = (c.flushed.left.resolved frame.start).emitted (Operation.endMethod.emits c) := by
  have hflush : flush.Ensures c fun _ d => d = c.flushed := .of_ok (flush_apply c) rfl
  refine hflush.bind ?_
  rintro _ _ rfl
  refine .get_bind ?_
  cases hframe : c.frame with
  | none =>
    have hflushed : c.flushed.frame = none := hframe
    rw [hflushed]
    exact .violate _
  | some frame =>
    have hflushed : c.flushed.frame = some frame := hframe
    rw [hflushed]
    refine .modify_bind ?_
    have hread : (readImage (·.getMethod frame.method)).Ensures c.flushed.left
        fun info d => d = c.flushed.left ∧ c.image.getMethod frame.method = .ok info :=
      .readImage fun info hinfo => ⟨rfl, hinfo⟩
    refine hread.bind ?_
    rintro info _ ⟨rfl, hinfo⟩
    have hcheck : (orViolate (c.labels.checkComplete (.method info.name))).Ensures c.flushed.left
        fun _ d => d = c.flushed.left ∧ c.labels.checkComplete (.method info.name) = .ok () :=
      .orViolate fun _ hcheck => ⟨rfl, hcheck⟩
    refine .get_bind (hcheck.bind ?_)
    rintro _ _ ⟨rfl, hcheck⟩
    exact .of_ok rfl ⟨frame, info, rfl, hinfo, Labels.complete_of_checkComplete hcheck, rfl⟩

lemma endMethod_meets :
    endMethod.Meets c fun _ d => Effect c .endMethod none (Operation.endMethod.emits c) d := by
  refine .of_ensures ((endMethod_ensures c).mono ?_)
  rintro _ _ ⟨frame, info, hframe, hinfo, hcomplete, rfl⟩
  exact .endMethod hframe hinfo hcomplete

section
variable {c} {frame : Frame} (hframe : c.frame = some frame) (type : CilType) (name : Option String)
include hframe

lemma allocLocal_room (h : frame.locals.size < maxSlots) :
    allocLocal type name c = .ok ⟨frame.locals.size, type⟩ (c.withLocal frame type name) := by
  have hroom : ¬maxSlots ≤ frame.locals.size := by omega
  simp only [allocLocal, bind_apply, get_apply, hframe, if_neg hroom, modify_apply, directive_apply,
    pure_apply, Slot.new_of_le h.le]
  rfl

lemma allocLocal_full {info : MethodInfo} (h : maxSlots ≤ frame.locals.size)
    (hinfo : c.image.getMethod frame.method = .ok info) :
    allocLocal type name c = .error (.failure (.tooManyLocals info.name)) c := by
  have hread : readImage (·.getMethod frame.method) c = .ok info c := readImage_apply hinfo
  simp only [allocLocal, bind_apply, get_apply, hframe, if_pos h, hread]
  rfl

end

/-- A local is declared where a method is open and the local can be addressed. -/
lemma allocLocal_declares (type : CilType) (name : Option String) :
    (allocLocal type name).Meets c fun _ d => ∃ frame, c.frame = some frame ∧
      frame.locals.size < maxSlots ∧ d = c.withLocal frame type name := by
  cases hframe : c.frame with
  | none =>
    refine .of_violation (v := .localOutsideMethod) (d := c) ?_
    simp only [allocLocal, bind_apply, get_apply, hframe]
    rfl
  | some frame =>
    by_cases hroom : frame.locals.size < maxSlots
    · exact .of_ok (allocLocal_room hframe type name hroom) ⟨frame, rfl, hroom, rfl⟩
    · have hfull : maxSlots ≤ frame.locals.size := Nat.le_of_not_lt hroom
      cases hinfo : c.image.getMethod frame.method with
      | ok info => exact .of_failure (allocLocal_full hframe type name hfull hinfo)
      | error v =>
        have hread : readImage (·.getMethod frame.method) c = .error (.violation v) c :=
          readImage_violates hinfo
        refine .of_violation (v := v) (d := c) ?_
        simp only [allocLocal, bind_apply, get_apply, hframe, if_pos hfull, hread]

lemma allocLocal_meets (type : CilType) (name : Option String) :
    (allocLocal type name).Meets c
      fun _ d =>
        Effect c (.allocLocal type name) none ((Operation.allocLocal type name).emits c) d := by
  refine (allocLocal_declares c type name).mono ?_
  rintro _ _ ⟨frame, hframe, -, rfl⟩
  exact .allocLocal type name hframe _ rfl

/-- A unit that ends hands over the committed listing with its open jumps settled. -/
lemma finish_ensures :
    finish.Ensures c fun listing _ => c.frame = none ∧ c.labels.Complete ∧
      listing = c.flushed.listing.resolveFrom 0 c.labels.isLeaveTarget := by
  refine .get_bind ?_
  cases hframe : c.frame with
  | some frame => exact True.intro
  | none =>
    have hflush : flush.Ensures c fun _ d => d = c.flushed := .of_ok (flush_apply c) rfl
    refine hflush.bind ?_
    rintro _ _ rfl
    have hcheck : (orViolate (c.labels.checkComplete .unit)).Ensures c.flushed
        fun _ d => d = c.flushed ∧ c.labels.checkComplete .unit = .ok () :=
      .orViolate fun _ hcheck => ⟨rfl, hcheck⟩
    refine .get_bind (hcheck.bind ?_)
    rintro _ _ ⟨rfl, hcomplete⟩
    exact .of_ok rfl ⟨rfl, Labels.complete_of_checkComplete hcomplete, rfl⟩

end

end Gen

/-- An operation that goes through has its effect. -/
theorem Operation.meets (op : Operation) (c : Context) :
    op.perform.Meets c fun label d => Effect c op label (op.emits c) d := by
  cases op with
  | emit e =>
    refine .then_none (.of_ensures ((e.emits_perform c).mono ?_))
    rintro _ _ rfl
    exact .emit e
  | keep b => exact .then_none (.of_ensures ((b.silent_perform c).mono fun _ _ => .keep))
  | flush => exact .of_ok rfl .flush
  | readListing => exact .of_ok rfl .readListing
  | setPeephole enabled => exact .of_ok rfl (.setPeephole enabled)
  | newLabel leave => exact Gen.newLabelOf_meets c leave
  | jump opcode label => exact .then_none (Gen.jump_meets c opcode label)
  | place label leave => exact .then_none (Gen.placeAs_meets c label leave)
  | beginSwitch => exact .then_none (Gen.beginSwitch_meets c)
  | switchTarget label first => exact .then_none (Gen.switchTarget_meets c label first)
  | endSwitch => exact .then_none (Gen.endSwitch_meets c)
  | beginMethod method => exact .then_none (Gen.beginMethod_meets c method)
  | endMethod => exact .then_none (Gen.endMethod_meets c)
  | allocLocal type name => exact .then_none (Gen.allocLocal_meets c type name)

/-- Placing a label goes through or is violated. -/
lemma Operation.placement?_of_failure {op : Operation} {c d : Context} {f : Failure}
    (h : op.perform c = .error (.failure f) d) : op.placement? = none := by
  cases op with
  | place label leave =>
    by_cases hmark : c.labels.mark? label.id = some .unplaced
    · simp only [perform, Gen.bind_apply, Gen.placeAs_apply leave label hmark] at h
      cases h
    · obtain ⟨v, hviolates⟩ := Gen.placeAs_violates leave label hmark
      simp only [perform, Gen.bind_apply, hviolates] at h
      cases h
  | _ => rfl

lemma Step.effect {c d : Context} {op : Operation} {label : Option Label} {events : List Event}
    (h : Step c op label events d) : Effect c op label events d := by
  have hmeets := op.meets c
  unfold Gen.Meets at hmeets
  cases h with
  | done performed =>
    rw [performed] at hmeets
    exact hmeets
  | refused performed =>
    rw [performed] at hmeets
    cases hmeets
    exact .refused (Operation.placement?_of_failure performed)

end CilAssembly
