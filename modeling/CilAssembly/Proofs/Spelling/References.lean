import CilAssembly.Proofs.Lexical.Nesting
import CilAssembly.Proofs.Spelling.Signatures

/-!
Names and references over whole histories. A class is added after the class around it, so its name
follows the enclosing classes outwards to one that stands in none. Tables only grow, so a name or a
reference that was given once is given ever after.
-/
namespace CilAssembly

/-- A call that adds an item. -/
inductive Addition
  | ofClass (space : Option String) (name : String)
  | nestedClass (enclosing : ClassId) (name : String)
  | importedClass (scope space name : String)
  | method (owner : ClassId) (name : String) (signature : Signature)
  | field (owner : ClassId) (name : String) (type : CilType)
  | member (owner : ClassId) (name : String) (kind : MemberKind)

namespace Addition

/-- Adds the item. Returns its identifier. -/
def perform : Addition → Gen Item
  | .ofClass space name => .ofClass <$> Gen.addClass space name
  | .nestedClass enclosing name => .ofClass <$> Gen.addNestedClass enclosing name
  | .importedClass scope space name => .ofClass <$> Gen.importClass scope space name
  | .method owner name signature => .ofMethod <$> Gen.addMethod owner name signature
  | .field owner name type => .ofField <$> Gen.addField owner name type
  | .member owner name kind => .ofMember <$> Gen.addMember owner name kind

/-- The class that the item is added to. -/
def target? : Addition → Option ClassId
  | .ofClass .. | .importedClass .. => none
  | .nestedClass enclosing _ => some enclosing
  | .method owner .. | .field owner .. | .member owner .. => some owner

end Addition

/-- Contexts that are reached from a new one by adding and binding items, with the identifiers
handed out on the way, newest first. A class that an item is added to was handed out before. -/
inductive Populated : List Item → Context → Prop
  | create (options : Options) : Populated [] (.create options)
  | add {handed : List Item} {c d : Context} {item : Item} (before : Populated handed c)
      (addition : Addition) (known : ∀ id ∈ addition.target?, .ofClass id ∈ handed)
      (performed : addition.perform c = .ok item d) : Populated (item :: handed) d
  | bind {handed : List Item} {c d : Context} (before : Populated handed c) (item : Item)
      (node : NodeId) (performed : Gen.bindItem item node c = .ok () d) : Populated handed d

/-- Contexts that are reached from another one by adding items, to whatever class, and by binding
items, whether the bindings go through or not. -/
inductive Later (c : Context) : Context → Prop
  | now : Later c c
  | add {d e : Context} {item : Item} (before : Later c d) (addition : Addition)
      (performed : addition.perform d = .ok item e) : Later c e
  | bind {d : Context} (before : Later c d) (item : Item) (node : NodeId) :
      Later c ((Gen.bindItem item node).ends d)

/-- Binding an item leaves all items as they are. -/
lemma image_ends_bindItem (item : Item) (node : NodeId) (c : Context) :
    ((Gen.bindItem item node).ends c).image = c.image := by
  cases h : c.image.checkBindable item with
  | ok => simp [Gen.ends, Gen.bindItem, Gen.readImage, h]
  | error v =>
    simp only [Gen.ends, Gen.bindItem, Gen.readImage, Gen.bind_apply, Gen.get_apply, h]
    rfl

section
variable {α : Type} {table table' : Array α} {index : Nat} {entry : α}

lemma fetch_extended (h : table.toList <+: table'.toList) (hentry : fetch table index = .ok entry) :
    fetch table' index = .ok entry := by
  rw [fetch_eq_ok, ← Array.getElem?_toList] at hentry ⊢
  obtain ⟨more, hmore⟩ := h
  rw [← hmore, List.getElem?_append_left (List.getElem?_eq_some_iff.mp hentry).1, hentry]

lemma fetch_push {new : α} (h : fetch (table.push new) index = .ok entry) :
    index = table.size ∧ entry = new ∨ fetch table index = .ok entry := by
  rw [fetch_eq_ok, Array.getElem?_push] at h
  split at h
  case isTrue hindex => exact .inl ⟨hindex, (Option.some.inj h).symm⟩
  case isFalse => exact .inr (fetch_eq_ok.mpr h)

end

namespace Image

/-- What adding an item does: a new entry at the end of a table. Only a class that stands in no
other may come with an assembly or a namespace. -/
inductive Adds (image : Image) : Option ClassId → Item → Image → Prop
  | ofClass (info : ClassInfo)
      (plain : info.enclosing.isSome → info.scope = none ∧ info.space = none) :
      Adds image info.enclosing (.ofClass ⟨image.classes.size⟩)
        { image with classes := image.classes.push info }
  | method (info : MethodInfo) : Adds image (some info.owner) (.ofMethod ⟨image.methods.size⟩)
      { image with methods := image.methods.push info }
  | field (info : FieldInfo) : Adds image (some info.owner) (.ofField ⟨image.fields.size⟩)
      { image with fields := image.fields.push info }
  | member (info : MemberInfo) : Adds image (some info.owner) (.ofMember ⟨image.members.size⟩)
      { image with members := image.members.push info }

end Image

lemma Addition.adds {addition : Addition} {c d : Context} {item : Item}
    (h : addition.perform c = .ok item d) : c.image.Adds addition.target? item d.image := by
  cases addition <;> cases h
  case ofClass space name => exact .ofClass { name, space } nofun
  case nestedClass enclosing name =>
    exact .ofClass { name, enclosing := some enclosing } fun _ => ⟨rfl, rfl⟩
  case importedClass scope space name =>
    exact .ofClass { name, space := some space, scope := some scope } nofun
  case method owner name signature =>
    exact .method { owner, name, signature, isStatic := !signature.hasThis }
  case field owner name type => exact .field { owner, name, type }
  case member owner name kind => exact .member { owner, name, kind }

namespace Image

/-- Every class, method and field stays what it is. -/
structure Extends (image image' : Image) : Prop where
  classes : image.classes.toList <+: image'.classes.toList
  methods : image.methods.toList <+: image'.methods.toList
  fields : image.fields.toList <+: image'.fields.toList

lemma Extends.refl (image : Image) : image.Extends image :=
  ⟨List.prefix_rfl, List.prefix_rfl, List.prefix_rfl⟩

lemma Extends.trans {image image' image'' : Image} (h : image.Extends image')
    (h' : image'.Extends image'') : image.Extends image'' :=
  ⟨h.classes.trans h'.classes, h.methods.trans h'.methods, h.fields.trans h'.fields⟩

section
variable {image image' : Image} {target : Option ClassId} {item : Item}
  (h : image.Adds target item image')
include h

lemma Adds.extends : image.Extends image' := by
  have hrefl := Extends.refl image
  cases h with
  | ofClass info => exact ⟨⟨[info], by simp⟩, hrefl.methods, hrefl.fields⟩
  | method info => exact ⟨hrefl.classes, ⟨[info], by simp⟩, hrefl.fields⟩
  | field info => exact ⟨hrefl.classes, hrefl.methods, ⟨[info], by simp⟩⟩
  | member => exact ⟨hrefl.classes, hrefl.methods, hrefl.fields⟩

lemma Adds.contains_iff (other : Item) :
    image'.Contains other ↔ other = item ∨ image.Contains other := by
  have hindex {index size : Nat} : index < size + 1 ↔ index = size ∨ index < size := by omega
  cases h <;>
    obtain ⟨⟨_⟩⟩ | ⟨⟨_⟩⟩ | ⟨⟨_⟩⟩ | ⟨⟨_⟩⟩ := other <;> simp [Contains, hindex]

end

/-- What holds of items that were added one by one: the identifiers handed out are those of the
items that are there, a class is younger than the one around it and shows neither an assembly nor a
namespace if there is one, and every owner is there. -/
structure Grounded (image : Image) (handed : List Item) : Prop where
  handed : ∀ item, item ∈ handed ↔ image.Contains item
  older : ∀ {id info outer}, image.getClass id = .ok info → info.enclosing = some outer →
    outer.index < id.index
  plain : ∀ {id info outer}, image.getClass id = .ok info → info.enclosing = some outer →
    info.scope = none ∧ info.space = none
  methods : ∀ {id info}, image.getMethod id = .ok info → image.Contains (.ofClass info.owner)
  fields : ∀ {id info}, image.getField id = .ok info → image.Contains (.ofClass info.owner)

lemma grounded_empty : Grounded {} [] where
  handed item := by cases item <;> simp [Contains]
  older h := by cases h
  plain h := by cases h
  methods h := by cases h
  fields h := by cases h

/-- Adding an item to a class that was handed out keeps all that. -/
lemma Grounded.add {image image' : Image} {handed : List Item} {target : Option ClassId}
    {item : Item} (h : image.Grounded handed) (hadds : image.Adds target item image')
    (hknown : ∀ id ∈ target, .ofClass id ∈ handed) : image'.Grounded (item :: handed) := by
  have hhanded (other : Item) : other ∈ item :: handed ↔ image'.Contains other := by
    rw [List.mem_cons, h.handed, hadds.contains_iff]
  have hstays {other : Item} (hother : image.Contains other) : image'.Contains other :=
    (hadds.contains_iff other).mpr (.inr hother)
  cases hadds with
  | ofClass new plain =>
    refine ⟨hhanded, ?_, ?_, fun hid => hstays (h.methods hid), fun hid => hstays (h.fields hid)⟩
    · intro id info outer hid houter
      obtain ⟨hnew, rfl⟩ | hold := fetch_push hid
      · exact hnew ▸ (h.handed _).mp (hknown outer houter)
      · exact h.older hold houter
    · intro id info outer hid houter
      obtain ⟨-, rfl⟩ | hold := fetch_push hid
      · exact plain (houter ▸ rfl)
      · exact h.plain hold houter
  | method new =>
    refine ⟨hhanded, h.older, h.plain, fun hid => ?_, h.fields⟩
    obtain ⟨-, rfl⟩ | hold := fetch_push hid
    · exact (h.handed _).mp (hknown _ rfl)
    · exact h.methods hold
  | field new =>
    refine ⟨hhanded, h.older, h.plain, h.methods, fun hid => ?_⟩
    obtain ⟨-, rfl⟩ | hold := fetch_push hid
    · exact (h.handed _).mp (hknown _ rfl)
    · exact h.fields hold
  | member new => exact ⟨hhanded, h.older, h.plain, h.methods, h.fields⟩

end Image

lemma Populated.grounded {handed : List Item} {c : Context} (h : Populated handed c) :
    c.image.Grounded handed := by
  induction h with
  | create => exact Image.grounded_empty
  | add before addition known performed ih => exact ih.add (Addition.adds performed) known
  | @bind handed c d before item node performed ih =>
    have himage := image_ends_bindItem item node c
    rw [Gen.ends, performed] at himage
    exact himage ▸ ih

lemma Later.extends {c d : Context} (h : Later c d) : c.image.Extends d.image := by
  induction h with
  | now => exact .refl _
  | add before addition performed ih => exact ih.trans (Addition.adds performed).extends
  | bind before item node ih => rwa [image_ends_bindItem]

/-- A part of a class name. -/
structure ClassName.Part where
  scope : Option String
  space : Option String
  name : String
  deriving DecidableEq, Repr

/-- The parts of a class name, from the innermost class outwards. -/
def ClassName.parts : ClassName → List Part
  | .outer scope space name => [⟨scope, space, name⟩]
  | .inner enclosing scope space name => ⟨scope, space, name⟩ :: enclosing.parts

/-- What a class itself has to show in a class name. -/
def ClassInfo.part (info : ClassInfo) : ClassName.Part :=
  ⟨info.scope, info.space, info.name⟩

/-- The name of a class, given the classes around it from the inside outwards. -/
def ClassName.ofNesting (info : ClassInfo) : List ClassInfo → ClassName
  | [] => .outer info.scope info.space info.name
  | next :: around => .nested (ofNesting next around) info.name

/-- Only the outermost part shows an assembly or a namespace. -/
lemma ClassName.plain_of_mem_dropLast (info : ClassInfo) (around : List ClassInfo) :
    ∀ part ∈ (ofNesting info around).parts.dropLast, part.scope = none ∧ part.space = none := by
  induction around generalizing info with
  | nil => exact List.forall_mem_nil _
  | cons next around ih =>
    have hne : (ofNesting next around).parts ≠ [] := by
      cases around <;> exact List.cons_ne_nil _ _
    rw [ofNesting, nested, parts, List.dropLast_cons_of_ne_nil hne]
    exact List.forall_mem_cons.mpr ⟨⟨rfl, rfl⟩, ih next⟩

namespace Image

/-- A class and the classes around it: each stands in the next one, and the last one in none. -/
inductive Nesting (image : Image) : ClassId → ClassInfo → List ClassInfo → Prop
  | outermost {id : ClassId} {info : ClassInfo} (found : image.getClass id = .ok info)
      (alone : info.enclosing = none) : Nesting image id info []
  | inside {id outer : ClassId} {info around : ClassInfo} {rest : List ClassInfo}
      (found : image.getClass id = .ok info) (enclosed : info.enclosing = some outer)
      (outside : Nesting image outer around rest) : Nesting image id info (around :: rest)

namespace Nesting
variable {image image' : Image} {id : ClassId} {info : ClassInfo} {around : List ClassInfo}

lemma found (h : image.Nesting id info around) : image.getClass id = .ok info := by
  cases h with
  | outermost found | inside found => exact found

lemma extend (h : image.Nesting id info around) (hextends : image.Extends image') :
    image'.Nesting id info around := by
  induction h with
  | outermost found alone => exact .outermost (fetch_extended hextends.classes found) alone
  | inside found enclosed _ ih =>
    exact .inside (fetch_extended hextends.classes found) enclosed ih

/-- The name of a class is that of its nesting, however many more classes could enclose it. -/
lemma classNameWithin (h : image.Nesting id info around) {depth : Nat}
    (hdepth : around.length ≤ depth) :
    image.classNameWithin depth id = .ok (.ofNesting info around) := by
  induction h generalizing depth with
  | outermost found alone =>
    rw [Image.classNameWithin, found]
    simp only [bind, Except.bind, alone]
    rfl
  | inside found enclosed outside ih =>
    obtain ⟨depth, rfl⟩ : ∃ n, depth = n + 1 := ⟨depth - 1, by simp at hdepth; omega⟩
    rw [Image.classNameWithin, found]
    simp only [bind, Except.bind, enclosed, ih (by simpa using hdepth)]
    rfl

section Grounded
variable {handed : List Item} (hground : image.Grounded handed)
include hground

/-- Every class has a nesting, as the classes around it are older. -/
lemma exists_of_contains (hid : image.Contains (.ofClass id)) :
    ∃ info around, image.Nesting id info around := by
  induction hindex : id.index using Nat.strongRecOn generalizing id with
  | ind index ih =>
    obtain ⟨info, hinfo⟩ : ∃ info, image.getClass id = .ok info := ⟨_, fetch_of_lt hid⟩
    cases henclosing : info.enclosing with
    | none => exact ⟨info, [], .outermost hinfo henclosing⟩
    | some outer =>
      have hlt := hground.older hinfo henclosing
      obtain ⟨around, rest, houter⟩ := ih outer.index (hindex ▸ hlt) (hlt.trans hid) rfl
      exact ⟨info, around :: rest, .inside hinfo henclosing houter⟩

lemma length_le (h : image.Nesting id info around) : around.length ≤ id.index := by
  induction h with
  | outermost => exact Nat.zero_le _
  | inside found enclosed outside ih =>
    have hlt := hground.older found enclosed
    rw [List.length_cons]
    omega

lemma parts_eq (h : image.Nesting id info around) :
    (ClassName.ofNesting info around).parts = (info :: around).map ClassInfo.part := by
  induction h with
  | outermost => rfl
  | inside found enclosed outside ih =>
    obtain ⟨hscope, hspace⟩ := hground.plain found enclosed
    rw [List.map_cons, ← ih, ClassInfo.part, hscope, hspace]
    rfl

end Grounded

end Nesting

section
variable {image : Image} {id : ClassId} {info : ClassInfo} {name : ClassName}

lemma classType_eq (hname : image.className id = .ok name) (hinfo : image.getClass id = .ok info) :
    image.classType id =
      .ok (if info.isValueType then .valueType name else .classType name) := by
  simp only [classType, hname, hinfo, bind, Except.bind]
  rfl

lemma fieldRef_eq {field : FieldId} {info : FieldInfo} (hinfo : image.getField field = .ok info)
    (howner : image.className info.owner = .ok name) :
    image.fieldRef field =
      .ok (info.type.render ++ " " ++ name.render ++ "::" ++ Identifier.quote info.name) := by
  simp only [fieldRef, hinfo, howner, bind, Except.bind]
  rfl

end

section Stable
variable {image image' : Image} {handed : List Item} (hground : image.Grounded handed)
  (hextends : image.Extends image')
include hground hextends

/-- A class that is there keeps its entry and its name. -/
lemma className_stable {id : ClassId} (hid : image.Contains (.ofClass id)) :
    ∃ info name, image.getClass id = .ok info ∧ image'.getClass id = .ok info ∧
      image.className id = .ok name ∧ image'.className id = .ok name := by
  obtain ⟨info, around, hnesting⟩ := Nesting.exists_of_contains hground hid
  have hlength := hnesting.length_le hground
  have hsize : image.classes.size ≤ image'.classes.size := hextends.classes.length_le
  have hlt : id.index < image.classes.size := hid
  have hlater := hnesting.extend hextends
  exact ⟨info, .ofNesting info around, hnesting.found, hlater.found,
    hnesting.classNameWithin (by omega), hlater.classNameWithin (by omega)⟩

lemma classType_stable {id : ClassId} (hid : image.Contains (.ofClass id)) :
    ∃ type, image.classType id = .ok type ∧ image'.classType id = .ok type := by
  obtain ⟨info, name, hinfo, hinfo', hname, hname'⟩ := className_stable hground hextends hid
  exact ⟨_, classType_eq hname hinfo, classType_eq hname' hinfo'⟩

lemma methodRef_stable {id : MethodId} (hid : image.Contains (.ofMethod id))
    (callSite : Option Signature) :
    ∃ text, image.methodRef id callSite = .ok text ∧ image'.methodRef id callSite = .ok text := by
  have hinfo : image.getMethod id = .ok image.methods[id.index] := fetch_of_lt hid
  obtain ⟨-, name, -, -, hname, hname'⟩ :=
    className_stable hground hextends (hground.methods hinfo)
  exact ⟨_, methodRef_eq hinfo hname callSite,
    methodRef_eq (fetch_extended hextends.methods hinfo) hname' callSite⟩

lemma fieldRef_stable {id : FieldId} (hid : image.Contains (.ofField id)) :
    ∃ text, image.fieldRef id = .ok text ∧ image'.fieldRef id = .ok text := by
  have hinfo : image.getField id = .ok image.fields[id.index] := fetch_of_lt hid
  obtain ⟨-, name, -, -, hname, hname'⟩ :=
    className_stable hground hextends (hground.fields hinfo)
  exact ⟨_, fieldRef_eq hinfo hname,
    fieldRef_eq (fetch_extended hextends.fields hinfo) hname'⟩

end Stable

end Image

/-- Names are well-founded and stable. In a unit whose items were added to classes that were handed
out before, the name of every class is found within as many steps outwards as the index of the class
says. It has a part for the class and for each class around it, up to one that stands in no other;
only that one shows an assembly or a namespace. Whatever is added or bound later, the name and the
type of a class and the references to methods and fields that are there stay the same. -/
theorem references_settled {handed : List Item} {c : Context} (populated : Populated handed c) :
    (∀ item, item ∈ handed ↔ c.image.Contains item) ∧
    (∀ id, c.image.Contains (.ofClass id) → ∃ info around name, c.image.Nesting id info around ∧
      (∀ depth, id.index ≤ depth → c.image.classNameWithin depth id = .ok name) ∧
      c.image.className id = .ok name ∧
      name.parts = (info :: around).map ClassInfo.part ∧
      ∀ part ∈ name.parts.dropLast, part.scope = none ∧ part.space = none) ∧
    ∀ d, Later c d →
      (∀ id, c.image.Contains (.ofClass id) →
        (∃ name, c.image.className id = .ok name ∧ d.image.className id = .ok name) ∧
        ∃ type, c.image.classType id = .ok type ∧ d.image.classType id = .ok type) ∧
      (∀ id callSite, c.image.Contains (.ofMethod id) →
        ∃ text, c.image.methodRef id callSite = .ok text ∧
          d.image.methodRef id callSite = .ok text) ∧
      ∀ id, c.image.Contains (.ofField id) →
        ∃ text, c.image.fieldRef id = .ok text ∧ d.image.fieldRef id = .ok text := by
  have hground := populated.grounded
  refine ⟨hground.handed, ?_, ?_⟩
  · intro id hid
    obtain ⟨info, around, hnesting⟩ := Image.Nesting.exists_of_contains hground hid
    have hlength := hnesting.length_le hground
    have hlt : id.index < c.image.classes.size := hid
    exact ⟨info, around, .ofNesting info around, hnesting,
      fun depth hdepth => hnesting.classNameWithin (by omega),
      hnesting.classNameWithin (by omega), hnesting.parts_eq hground,
      ClassName.plain_of_mem_dropLast info around⟩
  · intro d hlater
    have hextends := hlater.extends
    refine ⟨?_, ?_, ?_⟩
    · intro id hid
      obtain ⟨-, name, -, -, hname⟩ := Image.className_stable hground hextends hid
      exact ⟨⟨name, hname⟩, Image.classType_stable hground hextends hid⟩
    · intro id callSite hid
      exact Image.methodRef_stable hground hextends hid callSite
    · intro id hid
      exact Image.fieldRef_stable hground hextends hid

/-- A field of a nested class and a method of an imported one. Later on a class is nested deeper, a
method is added to a class that is not there, a class is bound and binding another one is refused.
-/
theorem references_settled_nested :
    ∃ handed c d, Populated handed c ∧ Later c d ∧ c.image.Contains (.ofField ⟨0⟩) ∧
      c.image.Contains (.ofMethod ⟨0⟩) ∧ d.image.classes.size = 4 ∧ d.image.methods.size = 2 ∧
      d.image.fieldRef ⟨0⟩ = .ok "int32 Demo.Outer/Inner::count" ∧
      d.image.methodRef ⟨0⟩ none = .ok "void [.library]System.Console::Write(char)" := by
  have populated := Populated.create {}
    |>.add (.importedClass libraryScope "System" "Console") nofun rfl
    |>.add (.method ⟨0⟩ "Write" { result := .void, params := [.char] }) (by decide) rfl
    |>.add (.ofClass (some "Demo") "Outer") nofun rfl
    |>.bind (.ofClass ⟨1⟩) ⟨5⟩ rfl
    |>.add (.nestedClass ⟨1⟩ "Inner") (by decide) rfl
    |>.add (.field ⟨2⟩ "count" .int32) (by decide) rfl
  have later (c : Context) : Later c _ := Later.now
    |>.add (.nestedClass ⟨2⟩ "Deeper") rfl
    |>.add (.method ⟨9⟩ "Lost" { result := .void, params := [] }) rfl
    |>.bind (.ofClass ⟨2⟩) ⟨6⟩
    |>.bind (.ofClass ⟨9⟩) ⟨7⟩
  obtain ⟨-, -, hstable⟩ := references_settled populated
  obtain ⟨-, hmethods, hfields⟩ := hstable _ (later _)
  obtain ⟨field, hfield, hfield'⟩ := hfields ⟨0⟩ (by decide)
  obtain ⟨method, hmethod, hmethod'⟩ := hmethods ⟨0⟩ none (by decide)
  refine ⟨_, _, _, populated, later _, by decide, by decide, rfl, rfl, ?_, ?_⟩
  · exact hfield'.trans (hfield.symm.trans (by decide +kernel))
  · exact hmethod'.trans (hmethod.symm.trans (by decide +kernel))

end CilAssembly
