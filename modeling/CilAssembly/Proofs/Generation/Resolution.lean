import CilAssembly.Proofs.Generation.Placement

/-!
The settling of open jumps. Settling them method by method and once more at the end of the unit
gives what settling them once, with all leave targets known, would give.
-/
namespace CilAssembly
open Peephole

/-- The form of the jump depends on how its label is placed. -/
def isOpenJump (opcode : Opcode) (label : Label) : Bool :=
  (label.leave && opcode.isUnconditionalBranch) || opcode == .branchOrLeave

/-- The line on which a jump stands in the final listing. -/
def settledJump (isLeaveTarget : LabelId → Bool) (opcode : Opcode) (label : Label) : Line :=
  let settled := if isLeaveTarget label.id then .leave else .br
  .instruction ⟨if isOpenJump opcode label then settled else opcode, .target label.id⟩

/-- The line is `br.or.leave`, on whatever operand. -/
def Line.isBranchOrLeave : Line → Bool
  | .instruction i => i.opcode == .branchOrLeave
  | _ => false

namespace Event

/-- Replaces a jump by its final line. -/
def settled (isLeaveTarget : LabelId → Bool) : Event → Event
  | .jump opcode label => .line (settledJump isLeaveTarget opcode label)
  | event => event

/-- The event writes `br.or.leave` without being a jump. -/
def isStray : Event → Bool
  | .jump .. => false
  | event => event.line?.any Line.isBranchOrLeave

end Event

namespace Line

lemma exists_of_isPending {line : Line} (h : line.isPending = true) :
    ∃ id, line = .instruction ⟨.branchOrLeave, .target id⟩ := by
  unfold isPending at h
  split at h
  case h_1 id => exact ⟨id, rfl⟩
  case h_2 => cases h

lemma resolve_jumpLine (isLeaveTarget : LabelId → Bool) (opcode : Opcode) (label : Label) :
    (jumpLine opcode label).resolve isLeaveTarget = settledJump isLeaveTarget opcode label := by
  cases hopen : label.leave && opcode.isUnconditionalBranch with
  | true => simp [jumpLine, settledJump, isOpenJump, hopen, resolve]
  | false =>
    by_cases hopcode : opcode = .branchOrLeave
    · simp [jumpLine, settledJump, isOpenJump, hopcode, resolve]
    · rw [resolve_settled]
      · simp [jumpLine, settledJump, isOpenJump, hopen, hopcode]
      · simp only [jumpLine, hopen, Bool.false_eq_true, if_false]
        exact isPending_of_ne hopcode

/-- Settling a jump for good makes a settling before it needless, if both agree on the target. -/
lemma resolve_resolve {line : Line} {f g : LabelId → Bool}
    (h : ∀ id ∈ line.targets, g id = f id) : (line.resolve g).resolve f = line.resolve f := by
  cases hpending : line.isPending with
  | false => rw [resolve_settled hpending]
  | true =>
    obtain ⟨id, rfl⟩ := exists_of_isPending hpending
    have hid : g id = f id := h id List.mem_cons_self
    rw [resolve_settled]
    · simp only [resolve, hid]
    · exact isPending_of_ne (by simp only; split <;> simp)

end Line

lemma Listing.map_resolve_resolveFrom {listing : Listing} {f g : LabelId → Bool} (start : Nat)
    (h : ∀ line ∈ listing.lines, ∀ id ∈ line.targets, g id = f id) :
    (listing.resolveFrom start g).lines.toList.map (Line.resolve f) =
      listing.lines.toList.map (Line.resolve f) := by
  rw [toList_resolveFrom]
  apply List.ext_getElem
  · simp
  · intro index hindex hindex'
    simp only [List.getElem_map, List.getElem_mapIdx]
    split
    · exact Line.resolve_resolve (h _ (Array.mem_toList_iff.mp (List.getElem_mem _)))
    · rfl

namespace Labels

/-- A choice of leave targets agrees with how the labels placed so far were placed. -/
def Agrees (labels : Labels) (isLeaveTarget : LabelId → Bool) : Prop :=
  ∀ id leave, labels.mark? id = some (.placed leave) → isLeaveTarget id = leave

lemma agrees_isLeaveTarget (labels : Labels) : labels.Agrees labels.isLeaveTarget := by
  intro id leave hid
  rw [isLeaveTarget, hid]
  cases leave <;> rfl

/-- Labels that are placed stay placed as they are. -/
lemma Agrees.of_change {labels labels' : Labels} {label : Option Label}
    {placement : Option (LabelId × Bool)} {isLeaveTarget : LabelId → Bool}
    (h : labels'.Agrees isLeaveTarget) (hchange : labels.Change label placement labels') :
    labels.Agrees isLeaveTarget := by
  intro id leave hid
  refine h id leave ?_
  cases hchange with
  | keep marks => rwa [mark?_congr marks]
  | hand =>
    rw [mark?_add, if_neg]
    · exact hid
    · rintro rfl
      rw [mark?_next_eq_none] at hid
      cases hid
  | place id' leave' unplaced =>
    rw [mark?_place unplaced, if_neg]
    · exact hid
    · rintro rfl
      rw [unplaced] at hid
      cases hid

end Labels

namespace Run
variable {options : Options} {history : History} {c d : Context} {listing : Listing}

/-- Settling what is left open of a listing gives what settling all its jumps gives. -/
lemma map_resolve (run : Run UsesOwnLabels (.create options) history c) {f : LabelId → Bool}
    (hf : c.labels.Agrees f) :
    c.listing.lines.toList.map (Line.resolve f) =
      ((Context.create options).queue.emitAll history.events).2.map (Line.resolve f) := by
  induction run with
  | start => rfl
  | @step history c op label events d run allowed step ih =>
    have hstep := ih (hf.of_change step.effect.change)
    rw [History.record, Queue.emitAll_append, ← run.queue_eq, List.map_append, ← hstep]
    obtain hlisting | ⟨start, text, hcomplete, rfl, hlisting⟩ := step.effect.listing_or
    · rw [hlisting, Listing.toList_append, List.map_append]
    · have hagree : ∀ line ∈ c.flushed.listing.lines, ∀ id ∈ line.targets,
          c.labels.isLeaveTarget id = f id := by
        intro line hline id hid
        obtain ⟨leave, hleave⟩ :=
          run.ledger.mem_placed.mp (run.target_placed hcomplete hline hid)
        rw [c.labels.agrees_isLeaveTarget id leave hleave,
          hf.of_change step.effect.change id leave hleave]
      rw [hlisting, Listing.toList_append, List.map_append,
        Listing.map_resolve_resolveFrom start hagree, Queue.emitAll_directive,
        Context.listing_flushed, Listing.toList_append]
      simp only [List.map_append, List.append_assoc]

end Run

lemma Line.map_resolve_eq {lines : List Line} (h : ∀ line ∈ lines, line.isBranchOrLeave = false)
    (f : LabelId → Bool) : lines.map (resolve f) = lines := by
  conv_rhs => rw [← List.map_id lines]
  refine List.map_congr_left fun line hline => resolve_settled ?_ f
  rw [← Bool.not_eq_true]
  intro hpending
  obtain ⟨id, rfl⟩ := exists_of_isPending hpending
  cases h _ hline

namespace Peephole.Queue
variable {queue : Queue} {event : Event} {events : List Event}

/-- What waits in the window is not `br.or.leave`. -/
def IsSettled (queue : Queue) : Prop :=
  ∀ line ∈ queue.window.map Line.instruction, line.isBranchOrLeave = false

/-- Only jumps bring `br.or.leave` in. -/
lemma IsSettled.mem_emit (h : queue.IsSettled) (hstray : event.isStray = false)
    (hjump : ∀ opcode label, event ≠ .jump opcode label) {line : Line}
    (hline : line ∈ (queue.emit event).2 ++ (queue.emit event).1.window.map .instruction) :
    line.isBranchOrLeave = false := by
  obtain hline | hline := Queue.mem_emit hline
  · exact h line hline
  · cases event with
    | jump opcode label => exact absurd rfl (hjump opcode label)
    | _ => simpa [Event.isStray, hline] using hstray

lemma IsSettled.emit (h : queue.IsSettled) (hstray : event.isStray = false) :
    (queue.emit event).1.IsSettled := by
  intro line hline
  cases event with
  | jump opcode label => cases hline
  | _ => exact h.mem_emit hstray (by simp) (List.mem_append_right _ hline)

/-- Settled jumps are what settling makes of the jumps. -/
lemma emit_settled (h : queue.IsSettled) (hstray : event.isStray = false) (f : LabelId → Bool) :
    queue.emit (event.settled f) =
      ((queue.emit event).1, (queue.emit event).2.map (Line.resolve f)) := by
  cases event with
  | jump opcode label =>
    have hwindow : (queue.flush.2.map Line.instruction).map (Line.resolve f) =
        queue.flush.2.map .instruction :=
      Line.map_resolve_eq (fun line hline => h line (by simpa [flush] using hline)) f
    rw [emit, List.map_append, hwindow, List.map_singleton, Line.resolve_jumpLine]
    rfl
  | _ =>
    have hlines := Line.map_resolve_eq
      (fun line hline => h.mem_emit hstray (by simp) (List.mem_append_left _ hline)) f
    rw [hlines]
    rfl

lemma emitAll_settled (h : queue.IsSettled) (hstray : ∀ event ∈ events, event.isStray = false)
    (f : LabelId → Bool) :
    queue.emitAll (events.map (Event.settled f)) =
      ((queue.emitAll events).1, (queue.emitAll events).2.map (Line.resolve f)) := by
  induction events generalizing queue with
  | nil => rfl
  | cons event events ih =>
    obtain ⟨hevent, hevents⟩ := List.forall_mem_cons.mp hstray
    rw [List.map_cons, emitAll, emit_settled h hevent, ih (h.emit hevent) hevents, emitAll,
      List.map_append]

end Peephole.Queue

lemma Event.not_isBranchOrLeave_settled {event : Event} {f : LabelId → Bool} {line : Line}
    (hstray : event.isStray = false) (hline : (event.settled f).line? = some line) :
    line.isBranchOrLeave = false := by
  cases event with
  | jump opcode label =>
    cases hline
    simp only [settledJump, Line.isBranchOrLeave, beq_eq_false_iff_ne]
    split_ifs with hopen
    · simp
    · simp
    · rintro rfl
      simp [isOpenJump] at hopen
  | _ =>
    simp only [settled] at hline
    simpa [isStray, hline] using hstray

section
variable {events : List Event} (hstray : ∀ event ∈ events, event.isStray = false)
include hstray

/-- The lines of settled jumps are the settled lines of the jumps. -/
lemma assemble_settled (enabled : Bool) (f : LabelId → Bool) :
    assemble enabled [] (events.map (Event.settled f)) =
      (assemble enabled [] events).map (Line.resolve f) := by
  have hnew : ({ enabled } : Queue).IsSettled := fun line hline => nomatch hline
  have hboundary : ∀ event ∈ events ++ [.boundary], event.isStray = false := by
    intro event hevent
    obtain hevent | hevent := List.mem_append.mp hevent
    · exact hstray event hevent
    · cases List.mem_singleton.mp hevent
      rfl
  have hsettled := congrArg Prod.snd (Queue.emitAll_settled hnew hboundary f)
  rw [List.map_append] at hsettled
  rw [← emitAll_boundary, ← emitAll_boundary]
  exact hsettled

lemma not_isBranchOrLeave_assemble (enabled : Bool) (f : LabelId → Bool) {line : Line}
    (h : line ∈ assemble enabled [] (events.map (Event.settled f))) :
    line.isBranchOrLeave = false := by
  rw [← emitAll_boundary] at h
  obtain hnone | ⟨event, hevent, hline⟩ := Queue.mem_emitAll (List.mem_append_left _ h)
  · cases hnone
  · obtain hevent | hevent := List.mem_append.mp hevent
    · obtain ⟨asked, hasked, rfl⟩ := List.mem_map.mp hevent
      exact Event.not_isBranchOrLeave_settled (hstray asked hasked) hline
    · cases List.mem_singleton.mp hevent
      cases hline

end

/-- The label was placed as a leave target. -/
def History.isLeaveTarget (history : History) (id : LabelId) : Bool :=
  history.placements.contains (id, true)

lemma Ledger.isLeaveTarget_eq {history : History} {labels : Labels} (h : Ledger history labels) :
    labels.isLeaveTarget = history.isLeaveTarget := by
  funext id
  rw [Bool.eq_iff_iff, Labels.isLeaveTarget, beq_iff_eq, h.placed, History.isLeaveTarget,
    List.contains_iff_mem]

lemma Listing.ext_toList {l m : Listing} (h : l.lines.toList = m.lines.toList) : l = m :=
  congrArg Listing.mk (Array.toList_inj.mp h)

lemma Listing.toList_resolveFrom_zero (listing : Listing) (f : LabelId → Bool) :
    (listing.resolveFrom 0 f).lines.toList = listing.lines.toList.map (Line.resolve f) := by
  rw [toList_resolveFrom]
  apply List.ext_getElem <;> simp

end CilAssembly
