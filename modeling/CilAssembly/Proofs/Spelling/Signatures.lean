import CilAssembly.Image
import CilAssembly.Proofs.Spelling.Names
import Mathlib.Data.List.Forall2
import Mathlib.Data.List.Nodup

/-!
Signatures. The text of a parameter list tells its types, up to the few types that are spelled alike,
so references to overloads of a method differ.
-/
namespace CilAssembly

namespace CilType
open Spelling

/-- The class names inside a type are made by the constructors of class names. What an enumeration
stands on is never spelled. -/
def Built : CilType → Prop
  | .classType name | .valueType name | .enum name _ => name.Built
  | .array element _ => element.Built
  | .byRef target | .pointer target => target.Built
  | _ => True

/-- Types are the same up to what their spelling leaves out. -/
inductive Alike : CilType → CilType → Prop
  | refl (t : CilType) : Alike t t
  | symm {t u : CilType} (h : Alike t u) : Alike u t
  | trans {t u v : CilType} (h : Alike t u) (h' : Alike u v) : Alike t v
  | invalid : Alike .invalid .void
  | enum (name : ClassName) (underlying : CilType) : Alike (.enum name underlying) (.valueType name)
  | rank (element : CilType) : Alike (.array element 0) (.array element 1)
  | classType {c d : ClassName} (h : c.Alike d) : Alike (.classType c) (.classType d)
  | valueType {c d : ClassName} (h : c.Alike d) : Alike (.valueType c) (.valueType d)
  | array {t u : CilType} (h : Alike t u) (rank : Nat) : Alike (.array t rank) (.array u rank)
  | byRef {t u : CilType} (h : Alike t u) : Alike (.byRef t) (.byRef u)
  | pointer {t u : CilType} (h : Alike t u) : Alike (.pointer t) (.pointer u)

lemma Alike.render {t u : CilType} (h : Alike t u) : t.render = u.render := by
  induction h with
  | refl => rfl
  | symm _ ih => exact ih.symm
  | trans _ _ ih ih' => exact ih.trans ih'
  | invalid => rfl
  | enum => rfl
  | rank => rfl
  | classType h => rw [CilType.render, CilType.render, h.render]
  | valueType h => rw [CilType.render, CilType.render, h.render]
  | array _ rank ih => rw [CilType.render, CilType.render, ih]
  | byRef _ ih => rw [CilType.render, CilType.render, ih]
  | pointer _ ih => rw [CilType.render, CilType.render, ih]

/-- Induction on types with the keywords taken together. -/
@[elab_as_elim]
theorem byKeyword {motive : CilType → Prop} (keyword : ∀ t ∈ keywords, motive t)
    (classType : ∀ name, motive (.classType name)) (valueType : ∀ name, motive (.valueType name))
    (enum : ∀ name underlying, motive (.enum name underlying))
    (array : ∀ element rank, motive element → motive (.array element rank))
    (byRef : ∀ target, motive target → motive (.byRef target))
    (pointer : ∀ target, motive target → motive (.pointer target)) (t : CilType) : motive t := by
  induction t with
  | classType name => exact classType name
  | valueType name => exact valueType name
  | enum name underlying => exact enum name underlying
  | array element rank ih => exact array element rank ih
  | byRef target ih => exact byRef target ih
  | pointer target ih => exact pointer target ih
  | _ => exact keyword _ (by decide)

/-- What the spelling of a type shows at first sight. -/
inductive Shape
  | keyword | ofClass | ofValue | array | byRef | pointer
  deriving DecidableEq

def shape : CilType → Shape
  | .classType _ => .ofClass
  | .valueType _ | .enum .. => .ofValue
  | .array .. => .array
  | .byRef _ => .byRef
  | .pointer _ => .pointer
  | _ => .keyword

/-- The shape of a type by its last character and its first word. -/
def Shape.ofText (cs : List Char) : Shape :=
  if cs.getLast? = some ']' then .array
  else if cs.getLast? = some '&' then .byRef
  else if cs.getLast? = some '*' then .pointer
  else if "class ".toList.isPrefixOf cs then .ofClass
  else if "valuetype ".toList.isPrefixOf cs then .ofValue
  else .keyword

lemma ofText_keyword : ∀ t ∈ keywords, Shape.ofText t.render.toList = t.shape := by
  decide

lemma toList_render_array (element : CilType) (rank : Nat) :
    (array element rank).render.toList =
      element.render.toList ++ '[' :: (List.replicate (rank - 1) ',' ++ [']']) := by
  simp [render]

lemma toList_render_byRef (target : CilType) :
    (byRef target).render.toList = target.render.toList ++ ['&'] := by
  simp [render]

lemma toList_render_pointer (target : CilType) :
    (pointer target).render.toList = target.render.toList ++ ['*'] := by
  simp [render]

lemma getLast?_named (word : List Char) (name : ClassName) {c : Char}
    (hc : ¬(c = '\'' ∨ Identifier.isBareChar c = true)) :
    (word ++ name.render.toList).getLast? ≠ some c := by
  obtain ⟨front, last, hname, hlast⟩ := name.render_eq_concat
  intro h
  rw [hname, ← List.append_assoc, List.getLast?_concat, Option.some.injEq] at h
  exact hc (h ▸ hlast)

lemma ofText_named (word : List Char) (name : ClassName) :
    Shape.ofText (word ++ name.render.toList) =
      if "class ".toList.isPrefixOf (word ++ name.render.toList) then .ofClass
      else if "valuetype ".toList.isPrefixOf (word ++ name.render.toList) then .ofValue
      else .keyword := by
  rw [Shape.ofText, if_neg (getLast?_named word name (by decide)),
    if_neg (getLast?_named word name (by decide)), if_neg (getLast?_named word name (by decide))]

lemma ofText_render (t : CilType) : Shape.ofText t.render.toList = t.shape := by
  induction t using byKeyword with
  | keyword t h => exact ofText_keyword t h
  | classType name =>
    rw [render, String.toList_append, ofText_named]
    rfl
  | valueType name =>
    rw [render, String.toList_append, ofText_named]
    rfl
  | enum name underlying =>
    rw [render, String.toList_append, ofText_named]
    rfl
  | array element rank =>
    rw [toList_render_array, ← List.cons_append, ← List.append_assoc, Shape.ofText,
      List.getLast?_concat]
    rfl
  | byRef target =>
    rw [toList_render_byRef, Shape.ofText, List.getLast?_concat]
    rfl
  | pointer target =>
    rw [toList_render_pointer, Shape.ofText, List.getLast?_concat]
    rfl

lemma shape_of_render {t u : CilType} (h : t.render.toList = u.render.toList) :
    t.shape = u.shape := by
  rw [← ofText_render, ← ofText_render, h]

lemma mem_keywords {t : CilType} (h : t.shape = .keyword) : t ∈ keywords := by
  cases t with
  | classType | valueType | enum | array | byRef | pointer => cases h
  | _ => decide

/-- No two keywords are spelled alike but those for no value at all. -/
lemma alike_of_keywords {t u : CilType} (ht : t ∈ keywords) (hu : u ∈ keywords)
    (h : t.render = u.render) : Alike t u := by
  have hvalid (t : CilType) (ht : t ∈ keywords) : ∃ t' ∈ keywords.dropLast, Alike t t' := by
    rw [← List.dropLast_append_getLast (l := keywords) (by decide), List.mem_append] at ht
    obtain ht | ht := ht
    · exact ⟨t, ht, .refl t⟩
    · obtain rfl : t = .invalid := List.mem_singleton.mp ht
      exact ⟨.void, by decide, .invalid⟩
  obtain ⟨t', ht', halike⟩ := hvalid t ht
  obtain ⟨u', hu', halike'⟩ := hvalid u hu
  have hnodup : (keywords.dropLast.map render).Nodup := by decide
  have hrender : t'.render = u'.render := by rw [← halike.render, h, halike'.render]
  obtain rfl := List.inj_on_of_nodup_map hnodup ht' hu' hrender
  exact halike.trans halike'.symm

/-- A value type, however it came about, is spelled by its name. -/
lemma exists_valueType {t : CilType} (h : t.shape = .ofValue) :
    ∃ name, Alike t (.valueType name) ∧ (t.Built → name.Built) := by
  cases t with
  | valueType name => exact ⟨name, .refl _, id⟩
  | enum name underlying => exact ⟨name, .enum name underlying, id⟩
  | _ => cases h

lemma alike_of_valueTypes {t u : CilType} (ht : t.Built) (hu : u.Built) (hshape : t.shape = .ofValue)
    (hshape' : u.shape = .ofValue) (h : t.render = u.render) : Alike t u := by
  obtain ⟨name, halike, hname⟩ := exists_valueType hshape
  obtain ⟨name', halike', hname'⟩ := exists_valueType hshape'
  rw [halike.render, halike'.render] at h
  have hnames : name.render = name'.render := by
    rw [← String.toList_inj, render, render, String.toList_append, String.toList_append] at h
    exact String.toList_inj.mp (List.append_cancel_left h)
  have hsame := (ClassName.render_eq_iff (hname ht) (hname' hu)).mp hnames
  exact halike.trans ((Alike.valueType hsame).trans halike'.symm)

lemma alike_of_ranks (element : CilType) {rank rank' : Nat} (h : rank - 1 = rank' - 1) :
    Alike (.array element rank) (.array element rank') := by
  obtain rfl | ⟨rfl, rfl⟩ | ⟨rfl, rfl⟩ :
      rank = rank' ∨ (rank = 0 ∧ rank' = 1) ∨ rank = 1 ∧ rank' = 0 := by omega
  · exact .refl _
  · exact .rank element
  · exact (Alike.rank element).symm

/-- The ends of arrays show their ranks and where their elements end. -/
lemma split_arrays {cs ds : List Char} {m n : Nat}
    (h : cs ++ '[' :: (List.replicate m ',' ++ [']']) =
      ds ++ '[' :: (List.replicate n ',' ++ [']'])) : cs = ds ∧ m = n := by
  have hcommas (k : Nat) : '[' ∉ List.replicate k ',' ++ [']'] := by simp [List.mem_replicate]
  obtain ⟨hsame, hends⟩ := split_at_last h (hcommas m) (hcommas n)
  exact ⟨hsame, by simpa using congrArg List.length hends⟩

/-- Types of the same spelling are alike. The shape of the spelling is that of both types, which
leaves the types of one shape to compare. -/
theorem alike_of_render {t u : CilType} (ht : t.Built) (hu : u.Built)
    (h : t.render.toList = u.render.toList) : Alike t u := by
  have hshape := shape_of_render h
  induction t using byKeyword generalizing u with
  | keyword t hmem =>
    have hkeyword : ∀ t ∈ keywords, t.shape = .keyword := by decide
    rw [hkeyword t hmem] at hshape
    exact alike_of_keywords hmem (mem_keywords hshape.symm) (String.toList_inj.mp h)
  | classType name =>
    cases u with
    | classType name' =>
      rw [render, render, String.toList_append, String.toList_append] at h
      exact .classType (ClassName.alike_of_render ht hu (List.append_cancel_left h))
    | _ => cases hshape
  | valueType name =>
    exact alike_of_valueTypes ht hu rfl hshape.symm (String.toList_inj.mp h)
  | enum name underlying =>
    exact alike_of_valueTypes ht hu rfl hshape.symm (String.toList_inj.mp h)
  | array element rank ih =>
    cases u with
    | array element' rank' =>
      rw [toList_render_array, toList_render_array] at h
      obtain ⟨helement, hrank⟩ := split_arrays h
      have hsame : Alike element element' := ih ht hu helement (shape_of_render helement)
      exact (Alike.array hsame rank).trans (alike_of_ranks element' hrank)
    | _ => cases hshape
  | byRef target ih =>
    cases u with
    | byRef target' =>
      rw [toList_render_byRef, toList_render_byRef] at h
      have htarget := List.append_cancel_right h
      exact .byRef (ih ht hu htarget (shape_of_render htarget))
    | _ => cases hshape
  | pointer target ih =>
    cases u with
    | pointer target' =>
      rw [toList_render_pointer, toList_render_pointer] at h
      have htarget := List.append_cancel_right h
      exact .pointer (ih ht hu htarget (shape_of_render htarget))
    | _ => cases hshape

/-- A comma in the text of a type stands between quotes or brackets. -/
lemma closed_render {t : CilType} (h : t.Built) : Closed ',' t.render.toList := by
  have hword {word : List Char} (hword : word = "class ".toList ∨ word = "valuetype ".toList) :
      Closed ',' word := by
    refine .of_all ?_
    obtain rfl | rfl := hword <;> decide
  induction t using byKeyword with
  | keyword t hmem =>
    have hplain : ∀ t ∈ keywords,
        t.render.toList.all (fun c => c ≠ ',' ∧ Mode.plain.next c = .plain) = true := by
      decide
    exact .of_all (hplain t hmem)
  | classType name =>
    rw [render, String.toList_append]
    exact (hword (.inl rfl)).append (ClassName.closed_render h)
  | valueType name =>
    rw [render, String.toList_append]
    exact (hword (.inr rfl)).append (ClassName.closed_render h)
  | enum name underlying =>
    rw [render, String.toList_append]
    exact (hword (.inr rfl)).append (ClassName.closed_render h)
  | array element rank ih =>
    rw [toList_render_array]
    exact (ih h).append (.brackets (by decide) (by simp [List.mem_replicate]))
  | byRef target ih =>
    rw [toList_render_byRef]
    exact (ih h).append (.singleton (by decide) rfl)
  | pointer target ih =>
    rw [toList_render_pointer]
    exact (ih h).append (.singleton (by decide) rfl)

lemma render_ne_nil (t : CilType) : t.render.toList ≠ [] := by
  cases t <;> simp [render]

lemma renderList_singleton (t : CilType) : (renderList [t]).toList = t.render.toList := by
  simp [renderList]

lemma renderList_cons_cons (t u : CilType) (us : List CilType) :
    (renderList (t :: u :: us)).toList =
      t.render.toList ++ ',' :: ' ' :: (renderList (u :: us)).toList := by
  simp [renderList, String.intercalate_cons_cons]

lemma renderList_ne_nil (t : CilType) (ts : List CilType) : (renderList (t :: ts)).toList ≠ [] := by
  cases ts with
  | nil =>
    rw [renderList_singleton]
    exact t.render_ne_nil
  | cons u us => simp [renderList_cons_cons]

/-- The text of a list shows its first type and the text of the others. -/
lemma renderList_cons_inj {t u : CilType} {ts us : List CilType} (ht : t.Built) (hu : u.Built)
    (h : (renderList (t :: ts)).toList = (renderList (u :: us)).toList) :
    t.render.toList = u.render.toList ∧ (renderList ts).toList = (renderList us).toList := by
  cases ts with
  | nil =>
    cases us with
    | nil =>
      rw [renderList_singleton, renderList_singleton] at h
      exact ⟨h, rfl⟩
    | cons u' us =>
      rw [renderList_singleton, renderList_cons_cons] at h
      exact absurd (closed_render hu).plain ((closed_render ht).hidden _ _ h)
  | cons t' ts =>
    cases us with
    | nil =>
      rw [renderList_singleton, renderList_cons_cons] at h
      exact absurd (closed_render ht).plain ((closed_render hu).hidden _ _ h.symm)
    | cons u' us =>
      rw [renderList_cons_cons, renderList_cons_cons] at h
      obtain ⟨hfirst, hrest⟩ := Closed.split_first h (closed_render ht) (closed_render hu)
      exact ⟨hfirst, (List.cons.inj hrest).2⟩

lemma alike_of_renderList {ts us : List CilType} (hts : ∀ t ∈ ts, t.Built) (hus : ∀ u ∈ us, u.Built)
    (h : (renderList ts).toList = (renderList us).toList) : List.Forall₂ Alike ts us := by
  induction ts generalizing us with
  | nil =>
    cases us with
    | nil => exact .nil
    | cons u us => exact absurd h.symm (renderList_ne_nil u us)
  | cons t ts ih =>
    cases us with
    | nil => exact absurd h (renderList_ne_nil t ts)
    | cons u us =>
      obtain ⟨ht, hts⟩ := List.forall_mem_cons.mp hts
      obtain ⟨hu, hus⟩ := List.forall_mem_cons.mp hus
      obtain ⟨hfirst, hrest⟩ := renderList_cons_inj ht hu h
      exact .cons (alike_of_render ht hu hfirst) (ih hts hus hrest)

lemma renderList_of_alike {ts us : List CilType} (h : List.Forall₂ Alike ts us) :
    renderList ts = renderList us := by
  have hmap : ts.map render = us.map render := by
    induction h with
    | nil => rfl
    | cons h _ ih => rw [List.map_cons, List.map_cons, h.render, ih]
  rw [renderList, renderList, hmap]

/-- Parameter lists of the same text have the same length and the same types, but for what the
spelling of types leaves out. -/
theorem renderList_eq_iff {ts us : List CilType} (hts : ∀ t ∈ ts, t.Built) (hus : ∀ u ∈ us, u.Built) :
    renderList ts = renderList us ↔ List.Forall₂ Alike ts us :=
  ⟨fun h => alike_of_renderList hts hus (congrArg String.toList h), renderList_of_alike⟩

end CilType

namespace Image

/-- What stands before the parameters in the reference to a method. -/
def methodHead (hasThis : Bool) (result : CilType) (owner : ClassName) (name : String) : String :=
  (if hasThis then "instance " else "") ++ result.render ++ " " ++ owner.render ++ "::" ++
    Identifier.quote name

lemma methodRef_eq {image : Image} {id : MethodId} {info : MethodInfo} {owner : ClassName}
    (hinfo : image.getMethod id = .ok info) (howner : image.className info.owner = .ok owner)
    (callSite : Option Signature) :
    image.methodRef id callSite = .ok
      (methodHead (callSite.getD info.signature).hasThis (callSite.getD info.signature).result owner
          info.name ++ "(" ++ CilType.renderList (callSite.getD info.signature).params ++ ")") := by
  simp only [methodRef, hinfo, howner, bind, Except.bind]
  rfl

/-- References tell overloads apart. Between the parentheses of two method references stands the same
text exactly if their parameter lists have the same length and are pairwise the same, up to `invalid`
for `void`, an enumeration for its value type, rank zero for rank one, and the dot that divides a bare
class name into namespace and name. -/
theorem methodRef_tells_overloads_apart {image image' : Image} {id id' : MethodId}
    {callSite callSite' : Option Signature} {info info' : MethodInfo} {owner owner' : ClassName}
    {signature signature' : Signature} (hinfo : image.getMethod id = .ok info)
    (hinfo' : image'.getMethod id' = .ok info') (howner : image.className info.owner = .ok owner)
    (howner' : image'.className info'.owner = .ok owner')
    (hsignature : callSite.getD info.signature = signature)
    (hsignature' : callSite'.getD info'.signature = signature')
    (hbuilt : ∀ t ∈ signature.params, t.Built) (hbuilt' : ∀ t ∈ signature'.params, t.Built) :
    ∃ inside inside' : String,
      image.methodRef id callSite =
        .ok (methodHead signature.hasThis signature.result owner info.name ++ "(" ++ inside ++ ")") ∧
      image'.methodRef id' callSite' =
        .ok (methodHead signature'.hasThis signature'.result owner' info'.name ++ "(" ++ inside' ++
          ")") ∧
      (inside = inside' ↔ List.Forall₂ CilType.Alike signature.params signature'.params) := by
  subst hsignature hsignature'
  exact ⟨_, _, methodRef_eq hinfo howner callSite, methodRef_eq hinfo' howner' callSite',
    CilType.renderList_eq_iff hbuilt hbuilt'⟩

/-- A method `f` of the first class. -/
def soleMethod : MethodInfo :=
  { owner := ⟨0⟩, name := "f", signature := { result := .void, params := [] }, isStatic := true }

/-- A class `A` with one method. -/
def soleImage : Image :=
  { classes := #[{ name := "A" }], methods := #[soleMethod] }

/-- A class nested in `A.B.C`, with a comma in its name, as an enumeration and as a value type. The
namespace ends at the first dot in one of the lists and at the second one in the other. -/
theorem methodRef_tells_overloads_apart_nested :
    let enums := CilType.array (.enum (.nested (.ofProgram (some "A") "B.C") "x, y") .int32) 0
    let values := CilType.array (.valueType (.nested (.ofProgram (some "A.B") "C") "x, y")) 1
    let first : Signature := { result := .void, params := [enums, .invalid] }
    let second : Signature := { result := .void, params := [values, .void] }
    (∀ t ∈ first.params, t.Built) ∧ (∀ t ∈ second.params, t.Built) ∧
    ∃ inside inside' : String,
      soleImage.methodRef ⟨0⟩ (some first) = .ok ("void A::f" ++ "(" ++ inside ++ ")") ∧
      soleImage.methodRef ⟨0⟩ (some second) = .ok ("void A::f" ++ "(" ++ inside' ++ ")") ∧
      inside = inside' := by
  intro enums values first second
  have hclass : (ClassName.nested (.ofProgram (some "A") "B.C") "x, y").Alike
      (.nested (.ofProgram (some "A.B") "C") "x, y") :=
    .nested (.dotted ⟨by simp; decide, by decide⟩ ⟨by simp; decide, by decide⟩ (by decide)) _
  have hvalues : enums.Alike values :=
    .trans (.array (.trans (.enum _ _) (.valueType hclass)) 0) (.rank _)
  have hfirst : ∀ t ∈ first.params, t.Built :=
    List.forall_mem_cons.mpr ⟨.nested (.ofProgram _ _) _, List.forall_mem_singleton.mpr trivial⟩
  have hsecond : ∀ t ∈ second.params, t.Built :=
    List.forall_mem_cons.mpr ⟨.nested (.ofProgram _ _) _, List.forall_mem_singleton.mpr trivial⟩
  have hinfo : soleImage.getMethod ⟨0⟩ = .ok soleMethod := rfl
  have howner : soleImage.className soleMethod.owner = .ok (.ofProgram none "A") := by
    decide +kernel
  have hcall (s : Signature) : (some s).getD soleMethod.signature = s := rfl
  obtain ⟨inside, inside', href, href', hiff⟩ := methodRef_tells_overloads_apart hinfo hinfo howner
    howner (hcall first) (hcall second) hfirst hsecond
  exact ⟨hfirst, hsecond, inside, inside', href, href',
    hiff.mpr (.cons hvalues (.cons .invalid .nil))⟩

end Image

end CilAssembly
