import CilAssembly.Context.Methods
import CilAssembly.Proofs.Generation.Steps

/-!
Method bodies as functions on contexts. Where all labels are placed and no jump is open, ending a
method or a unit leaves the lines so far as they are.
-/
namespace CilAssembly

/-- Only `br.or.leave` is an open jump. -/
lemma Line.isPending_of_ne {i : Instruction} (h : i.opcode ≠ .branchOrLeave) :
    (Line.instruction i).isPending = false := by
  unfold isPending
  split
  case h_1 heq =>
    cases heq
    exact absurd rfl h
  case h_2 => rfl

lemma Line.resolve_settled {line : Line} (h : line.isPending = false)
    (isLeaveTarget : LabelId → Bool) : line.resolve isLeaveTarget = line := by
  unfold resolve
  split
  · cases h
  · rfl

/-- Settling the jumps of lines without open ones changes nothing. -/
lemma Listing.resolveFrom_append {listing : Listing} {lines : List Line}
    (h : ∀ line ∈ lines, line.isPending = false) (isLeaveTarget : LabelId → Bool) :
    (listing.append lines).resolveFrom listing.size isLeaveTarget = listing.append lines := by
  have hlines : (listing.lines ++ lines.toArray).mapIdx (fun index line =>
      if listing.size ≤ index then line.resolve isLeaveTarget else line) =
      listing.lines ++ lines.toArray := by
    apply Array.ext
    · simp
    · intro index hindex hindex'
      rw [Array.getElem_mapIdx]
      split
      case isFalse => rfl
      case isTrue hstart =>
        apply Line.resolve_settled
        rw [Array.getElem_append_right hstart]
        exact h _ (List.getElem_mem _)
  exact congrArg Listing.mk hlines

namespace Labels

/-- Every label is placed and no switch table is open. -/
structure Complete (labels : Labels) : Prop where
  switch : labels.switch = none
  marks : ∀ mark ∈ labels.marks, mark.isPlaced = true

lemma complete_empty : Complete {} where
  switch := rfl
  marks := by simp

lemma unplaced_complete {labels : Labels} (h : labels.Complete) : labels.unplaced = [] := by
  rw [unplaced, List.filterMap_eq_nil_iff]
  rintro ⟨mark, index⟩ hmark
  have hplaced := h.marks mark (Array.mem_toList_iff.mp (List.fst_mem_of_mem_zipIdx hmark))
  simp [hplaced]

lemma checkComplete_complete {labels : Labels} (h : labels.Complete) (stretch : Stretch) :
    labels.checkComplete stretch = .ok () := by
  simp [checkComplete, h.switch, unplaced_complete h]

lemma complete_of_checkComplete {labels : Labels} {stretch : Stretch}
    (h : labels.checkComplete stretch = .ok ()) : labels.Complete := by
  unfold checkComplete at h
  split at h
  case isTrue => cases h
  case isFalse hswitch =>
    split at h
    case h_2 => cases h
    case h_1 hunplaced =>
      refine ⟨by simpa using hswitch, ?_⟩
      intro mark hmark
      obtain ⟨index, hindex, hget⟩ := Array.mem_iff_getElem.mp hmark
      have hentry : (mark, index) ∈ labels.marks.toList.zipIdx := by
        rw [List.mk_mem_zipIdx_iff_getElem?]
        simp [hindex, hget]
      have hnone := (List.filterMap_eq_nil_iff.mp hunplaced) _ hentry
      simpa using hnone

end Labels

namespace Context

/-- Enters a method: its stack is empty. -/
def entered (c : Context) (frame : Frame) : Context :=
  { c with stack := {}, frame := some frame }

/-- Empties the stack. -/
def cleared (c : Context) : Context :=
  { c with stack := {} }

/-- Leaves a method. -/
def left (c : Context) : Context :=
  { c with frame := none }

@[simp] lemma flushed_entered (c : Context) (frame : Frame) :
    (c.entered frame).flushed = c.flushed.entered frame := rfl

/-- Lines that place all their labels leave none open. -/
lemma complete_after {c : Context} (h : c.labels.Complete) (lines : List Line) (peak labels : Nat)
    (warnings : List Diagnostic) : (c.after lines peak labels warnings).labels.Complete where
  switch := h.switch
  marks := by
    intro mark hmark
    obtain hmark | hmark := Array.mem_append.mp hmark
    · exact h.marks mark hmark
    · rw [Array.eq_of_mem_replicate hmark]
      rfl

end Context

/-- The number of a slot that can be addressed is kept. -/
lemma Slot.new_of_le {index : Nat} (h : index ≤ maxSlots) (type : CilType) :
    Slot.new index type = ⟨index, type⟩ := by
  have hmod : index % 0x10000 = index := Nat.mod_eq_of_lt (Nat.lt_succ_of_le h)
  rw [Slot.new, hmod]

namespace Gen
variable {c : Context}

lemma readImage_apply {α : Type} {query : Image → Except Violation α} {a : α}
    (h : query c.image = .ok a) : readImage query c = .ok a c := by
  simp only [readImage, bind_apply, get_apply, h, orViolate_ok]

lemma readImage_violates {α : Type} {query : Image → Except Violation α} {v : Violation}
    (h : query c.image = .error v) : readImage query c = .error (.violation v) c := by
  simp only [readImage, bind_apply, get_apply, h]
  rfl

@[simp] lemma directive_apply (text : String) (c : Context) :
    directive text c = .ok () (c.flushed.appended [.directive text]) :=
  appendLine_apply ..

/-- A local gets the next index. -/
lemma allocLocal_apply {frame : Frame} (h : frame.locals.size < maxSlots) (type : CilType)
    (name : String) :
    allocLocal type (some name) (c.entered frame) = .ok ⟨frame.locals.size, type⟩
      ((c.flushed.appended
        [.directive ("\t.locals init\t(" ++ type.render ++ (" '" ++ name ++ "'") ++ ")")]).entered
        { frame with locals := frame.locals.push ⟨frame.locals.size, type⟩ }) := by
  have hframe : (c.entered frame).frame = some frame := rfl
  have hroom : ¬maxSlots ≤ frame.locals.size := by omega
  simp only [allocLocal, bind_apply, get_apply, hframe, if_neg hroom, modify_apply, directive_apply,
    pure_apply, Slot.new_of_le h.le]
  rfl

/-- The end of a method whose labels are placed and whose jumps are settled. -/
lemma endMethod_apply {frame : Frame} {info : MethodInfo} {listing : Listing} {lines : List Line}
    (hframe : c.frame = some frame) (hmethod : c.image.getMethod frame.method = .ok info)
    (hlabels : c.labels.Complete) (hlisting : c.flushed.listing = listing.append lines)
    (hstart : frame.start = listing.size) (hlines : ∀ line ∈ lines, line.isPending = false) :
    endMethod c = .ok () (c.flushed.left.appended
      [.directive ("\t.maxstack " ++ toString c.stack.peak ++ "\n\x7d")]) := by
  have hread : readImage (·.getMethod frame.method) { c.flushed with frame := none } =
    .ok info { c.flushed with frame := none } := readImage_apply hmethod
  have hcomplete : c.flushed.labels.checkComplete (.method info.name) = .ok () :=
    Labels.checkComplete_complete hlabels _
  have hresolve : c.flushed.listing.resolveFrom frame.start c.flushed.labels.isLeaveTarget =
      c.flushed.listing := by
    rw [hlisting, hstart]
    exact Listing.resolveFrom_append hlines _
  have hflushed : c.flushed.frame = some frame := hframe
  simp only [endMethod, bind_apply, flush_apply, get_apply, hflushed, modify_apply, hread,
    hcomplete, orViolate_ok, hresolve, directive_apply]
  rfl

/-- The end of a unit whose labels are placed and whose jumps are settled. -/
lemma finish_apply (hframe : c.frame = none) (hlabels : c.labels.Complete)
    (hlines : ∀ line ∈ c.flushed.listing.lines, line.isPending = false) :
    finish c = .ok c.flushed.listing c.flushed := by
  have hcomplete : c.flushed.labels.checkComplete .unit = .ok () :=
    Labels.checkComplete_complete hlabels _
  have hresolve : c.flushed.listing.resolveFrom 0 c.flushed.labels.isLeaveTarget =
      c.flushed.listing := by
    have hlisting : c.flushed.listing = Listing.append {} c.flushed.listing.lines.toList := by
      simp [Listing.append]
    rw [hlisting]
    exact Listing.resolveFrom_append
      (fun line hline => hlines line (Array.mem_toList_iff.mp hline)) _
  simp only [finish, bind_apply, get_apply, hframe, flush_apply, hcomplete, orViolate_ok,
    modify_apply, hresolve, pure_apply, Option.isSome_none, Bool.false_eq_true, if_false]

end Gen

end CilAssembly
