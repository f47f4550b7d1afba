import CilAssembly.Proofs.Generation.Effects
import CilAssembly.Proofs.Lexical.Entry

/-!
Bindings over whole runs. Whatever is done to a unit, the node of an item is the one that the item
was bound to last, and nothing changes it but binding that very item again.
-/
namespace CilAssembly

namespace Image

/-- No item is lost between two images. -/
structure Grows (image image' : Image) : Prop where
  classes : image.classes.size ≤ image'.classes.size
  methods : image.methods.size ≤ image'.methods.size
  fields : image.fields.size ≤ image'.fields.size
  members : image.members.size ≤ image'.members.size

lemma Grows.refl (image : Image) : image.Grows image :=
  ⟨le_rfl, le_rfl, le_rfl, le_rfl⟩

lemma Grows.contains {image image' : Image} (h : image.Grows image') {item : Item}
    (hitem : image.Contains item) : image'.Contains item := by
  cases item with
  | ofClass id => exact hitem.trans_le h.classes
  | ofMethod id => exact hitem.trans_le h.methods
  | ofField id => exact hitem.trans_le h.fields
  | ofMember id => exact hitem.trans_le h.members

section
variable (image : Image)

lemma grows_pushClass (info : ClassInfo) : image.Grows (image.pushClass info).2 :=
  ⟨by simp [pushClass], le_rfl, le_rfl, le_rfl⟩

lemma grows_addMethod (owner : ClassId) (name : String) (signature : Signature) :
    image.Grows (image.addMethod owner name signature).2 :=
  ⟨le_rfl, by simp [addMethod], le_rfl, le_rfl⟩

lemma grows_addField (owner : ClassId) (name : String) (type : CilType) :
    image.Grows (image.addField owner name type).2 :=
  ⟨le_rfl, le_rfl, by simp [addField], le_rfl⟩

lemma grows_addMember (owner : ClassId) (name : String) (kind : MemberKind) :
    image.Grows (image.addMember owner name kind).2 :=
  ⟨le_rfl, le_rfl, le_rfl, by simp [addMember]⟩

end

end Image

/-- The item that is bound, with its node. -/
def Bookkeeping.binding? : Bookkeeping → Option (Item × NodeId)
  | .bindItem item node => some (item, node)
  | _ => none

/-- The item that an operation binds, with its node. -/
def Operation.binding? : Operation → Option (Item × NodeId)
  | .keep b => b.binding?
  | _ => none

/-- Between two contexts no item is lost, and at most one is bound. -/
structure Context.Binds (c : Context) (binding : Option (Item × NodeId)) (d : Context) : Prop where
  image : c.image.Grows d.image
  bindings : d.bindings = binding.toList ++ c.bindings

/-- Nothing is bound where items and bindings stay as they are. -/
lemma Context.binds_none {c d : Context} (himage : d.image = c.image)
    (hbindings : d.bindings = c.bindings) : c.Binds none d :=
  ⟨himage ▸ .refl _, hbindings⟩

/-- What an operation without code does to the bindings. -/
lemma Bookkeeping.binds (b : Bookkeeping) (c : Context) :
    b.perform.Ensures c fun _ d => c.Binds b.binding? d := by
  have hupdate {α : Type} {check : Image → Except Violation α} {f : Image → Image}
      (h : c.image.Grows (f c.image)) :
      (Gen.updateImage fun image => do let _ ← check image; return f image).Ensures c
        fun _ d => c.Binds none d := by
    refine (Gen.updateImage_ensures check f c).mono ?_
    rintro _ _ rfl
    exact ⟨h, rfl⟩
  cases b with
  | addClass | addNestedClass | importClass => exact .of_ok rfl ⟨c.image.grows_pushClass _, rfl⟩
  | addMethod owner name signature => exact .of_ok rfl ⟨c.image.grows_addMethod .., rfl⟩
  | addField owner name type => exact .of_ok rfl ⟨c.image.grows_addField .., rfl⟩
  | addMember owner name kind => exact .of_ok rfl ⟨c.image.grows_addMember .., rfl⟩
  | modifyClass id f => exact hupdate ⟨by simp, le_rfl, le_rfl, le_rfl⟩
  | modifyMethod id f => exact hupdate ⟨le_rfl, by simp, le_rfl, le_rfl⟩
  | modifyField id f => exact hupdate ⟨le_rfl, le_rfl, by simp, le_rfl⟩
  | createScope | leaveItem | enterOverflow | leaveOverflow | setLexical | setCheckedByDefault
  | setAssemblyName | report | setListener => exact .of_ok rfl (Context.binds_none rfl rfl)
  | declare scope name item =>
    have hdeclare : (Gen.declare scope name item).Ensures c fun _ d => c.Binds none d :=
      .get_bind ((Gen.Reads.orViolate _).bind fun _ => .of_ok rfl (Context.binds_none rfl rfl))
    exact hdeclare.bind fun _ _ h => .of_ok rfl h
  | bindItem item node =>
    exact (Gen.Reads.readImage _).bind fun _ => .of_ok rfl ⟨.refl _, rfl⟩
  | enterItem tree item =>
    refine (Gen.enterItem_ensures tree item c).bind ?_
    rintro _ _ ⟨⟩ <;> exact .of_ok rfl (Context.binds_none rfl rfl)
  | adjust delta =>
    refine .get_bind ?_
    extract_lets height
    split
    · exact .violate _
    split
    · exact .violate _
    · exact .of_ok rfl (Context.binds_none rfl rfl)
  | extend extra =>
    refine .get_bind ?_
    extract_lets needed
    split
    · exact .violate _
    · exact .of_ok rfl (Context.binds_none rfl rfl)

/-- Operations that emit code or concern labels and methods bind nothing. -/
lemma Effect.binds {c d : Context} {op : Operation} {label : Option Label} {events : List Event}
    (h : Effect c op label events d) :
    (∃ b, op = .keep b) ∨ op.binding? = none ∧ c.Binds none d := by
  have hemitted (c : Context) (events : List Event) : c.Binds none (c.emitted events) :=
    Context.binds_none (c.image_emitted events) (by rw [Context.emitted_eq])
  cases h with
  | emit e => exact .inr ⟨rfl, hemitted c _⟩
  | keep keeps => exact .inl ⟨_, rfl⟩
  | beginMethod | allocLocal =>
    exact .inr ⟨rfl, (hemitted c _).image, (hemitted c _).bindings⟩
  | @endMethod frame =>
    have hresolved := hemitted (c.flushed.left.resolved frame.start)
    exact .inr ⟨rfl, (hresolved _).image, (hresolved _).bindings⟩
  | refused =>
    cases op with
    | keep b => exact .inl ⟨b, rfl⟩
    | _ => exact .inr ⟨rfl, Context.binds_none rfl rfl⟩
  | _ => exact .inr ⟨rfl, Context.binds_none rfl rfl⟩

/-- One operation binds at most one item, and no item is lost. -/
theorem Step.binds {c d : Context} {op : Operation} {label : Option Label} {events : List Event}
    (h : Step c op label events d) : c.Binds op.binding? d := by
  obtain ⟨b, rfl⟩ | ⟨hop, hbinds⟩ := h.effect.binds
  · have hkeep : (Operation.keep b).perform.Ensures c fun _ d => c.Binds b.binding? d :=
      (b.binds c).bind fun _ _ h => .of_ok rfl h
    cases h with
    | done performed => exact hkeep.done performed
    | refused performed =>
      rw [Gen.Ensures, performed] at hkeep
      exact hkeep.elim
  · rw [hop]
    exact hbinds

lemma Operation.binding?_eq_some {op : Operation} {item : Item} {node : NodeId} :
    op.binding? = some (item, node) ↔ op = .keep (.bindItem item node) := by
  constructor
  · intro h
    unfold binding? Bookkeeping.binding? at h
    split at h
    · split at h <;> cases h
      rfl
    · cases h
  · rintro rfl
    rfl

/-- An operation binds an item anew, or leaves its node alone. -/
theorem Step.lookup {c d : Context} {op : Operation} {label : Option Label} {events : List Event}
    (h : Step c op label events d) (item : Item) :
    (∃ node, op = .keep (.bindItem item node) ∧ d.bindings.lookup item = some node) ∨
      (∀ node, op ≠ .keep (.bindItem item node)) ∧
        d.bindings.lookup item = c.bindings.lookup item := by
  have hbindings := h.binds.bindings
  cases hbound : op.binding? with
  | none =>
    rw [hbound] at hbindings
    refine .inr ⟨fun node hop => ?_, congrArg (List.lookup item) hbindings⟩
    rw [Operation.binding?_eq_some.mpr hop] at hbound
    cases hbound
  | some binding =>
    obtain ⟨bound, node⟩ := binding
    rw [hbound] at hbindings
    obtain rfl := Operation.binding?_eq_some.mp hbound
    by_cases hitem : item = bound
    · subst hitem
      exact .inl ⟨node, rfl, by rw [hbindings]; exact List.lookup_cons_self⟩
    · refine .inr ⟨?_, ?_⟩
      · rintro _ ⟨⟩
        exact hitem rfl
      · have hother : (item == bound) = false := beq_false_of_ne hitem
        simp [hbindings, List.lookup_cons, hother]

/-- The node that an item is bound to by operations, as the last of them that binds it says. -/
inductive BoundLast (item : Item) : List Operation → Option NodeId → Prop
  | never {ops : List Operation} (unbound : ∀ node, .keep (.bindItem item node) ∉ ops) :
      BoundLast item ops none
  | last {before after : List Operation} {node : NodeId}
      (later : ∀ node, .keep (.bindItem item node) ∉ after) :
      BoundLast item (before ++ .keep (.bindItem item node) :: after) (some node)

namespace BoundLast
variable {item : Item} {ops : List Operation} {answer : Option NodeId}

/-- Binding the item once more settles its node. -/
lemma rebind (ops : List Operation) (node : NodeId) :
    BoundLast item (ops ++ [.keep (.bindItem item node)]) (some node) :=
  .last fun _ => List.not_mem_nil

/-- Any other operation makes no difference. -/
lemma append (h : BoundLast item ops answer) {op : Operation}
    (hop : ∀ node, op ≠ .keep (.bindItem item node)) : BoundLast item (ops ++ [op]) answer := by
  have hother {ops : List Operation} (hops : ∀ node, .keep (.bindItem item node) ∉ ops) :
      ∀ node, .keep (.bindItem item node) ∉ ops ++ [op] := by
    intro node hmem
    obtain hmem | hmem := List.mem_append.mp hmem
    · exact hops node hmem
    · exact hop node (List.mem_singleton.mp hmem).symm
  cases h with
  | never unbound => exact .never (hother unbound)
  | last later =>
    rw [List.append_assoc, List.cons_append]
    exact .last (hother later)

end BoundLast

/-- Over a run, bindings answer with the last one of each item. -/
theorem Run.boundLast {rule : History → Operation → Prop} {b c : Context} {history : History}
    (run : Run rule b history c) (hb : b.bindings = []) (item : Item) :
    BoundLast item history.operations (c.bindings.lookup item) := by
  induction run with
  | start =>
    rw [hb]
    exact .never fun _ => List.not_mem_nil
  | @step history c op label events d _ _ step ih =>
    obtain ⟨node, rfl, hnode⟩ | ⟨hop, hsame⟩ := step.lookup item
    · rw [hnode]
      exact .rebind history.operations node
    · rw [hsame]
      exact ih.append hop

/-- An item that is there can be bound. -/
lemma exists_step_bindItem {c : Context} {item : Item} (h : c.image.Contains item)
    (node : NodeId) : ∃ d, Step c (.keep (.bindItem item node)) none [] d := by
  have hread : Gen.readImage (·.checkBindable item) c = .ok () c :=
    Gen.readImage_apply (Image.checkBindable_of_contains h)
  refine ⟨{ c with bindings := (item, node) :: c.bindings }, .done ?_⟩
  simp only [Operation.perform, Bookkeeping.perform, Gen.bindItem, Gen.bind_apply, hread,
    Gen.modify_apply, Gen.pure_apply]

end CilAssembly
