import CilAssembly.Proofs.Generation.Ledger
import CilAssembly.Proofs.Generation.Output

/-!
The discipline of labels. Label lines are the placements of a run, and where a run uses its own
labels only, its jumps go to labels that are placed once.
-/
namespace CilAssembly
open Peephole

/-- The label that a line places, and whether as a leave target. -/
def Line.label? : Line → Option (LabelId × Bool)
  | .label id leave => some (id, leave)
  | _ => none

namespace Event

/-- The label that an event places, and whether as a leave target. -/
def label? (event : Event) : Option (LabelId × Bool) :=
  event.line?.bind Line.label?

/-- The labels that an event branches to. -/
def targets (event : Event) : List LabelId :=
  event.line?.elim [] Line.targets

/-- The event neither places a label nor branches to one. -/
def IsUnlabeled (event : Event) : Prop :=
  event.label? = none ∧ event.targets = []

@[simp] lemma isUnlabeled_plain (i : Instruction) :
    (Event.plain i).IsUnlabeled ↔ i.operand.labels = [] :=
  and_iff_right rfl

@[simp] lemma isUnlabeled_instruction (i : Instruction) :
    (Event.line (.instruction i)).IsUnlabeled ↔ i.operand.labels = [] :=
  and_iff_right rfl

@[simp] lemma isUnlabeled_tokenLine (opcode : Opcode) (token : String) :
    (tokenLine opcode token).IsUnlabeled :=
  ⟨rfl, rfl⟩

@[simp] lemma isUnlabeled_directive (text : String) : (directive text).IsUnlabeled :=
  ⟨rfl, rfl⟩

@[simp] lemma isUnlabeled_boundary : Event.boundary.IsUnlabeled :=
  ⟨rfl, rfl⟩

@[simp] lemma isUnlabeled_setPeephole (enabled : Bool) : (Event.setPeephole enabled).IsUnlabeled :=
  ⟨rfl, rfl⟩

lemma isUnlabeled_ofToken (opcode : Opcode) (token : Except Violation String) :
    ∀ event ∈ ofToken opcode token, event.IsUnlabeled := by
  cases token <;> simp [ofToken]

end Event

@[simp] lemma Operand.labels_nothing : Operand.nothing.labels = [] := rfl

@[simp] lemma Gen.labels_int32Load (value : Int32) : (int32Load value).operand.labels = [] := by
  unfold int32Load
  split <;> rfl

@[simp] lemma SlotAccess.labels_instruction (access : SlotAccess) (index : Nat) :
    (access.instruction index).operand.labels = [] := by
  unfold instruction
  split
  case h_5 => split <;> rfl
  all_goals rfl

lemma Emission.isUnlabeled_emits (e : Emission) (c : Context) :
    ∀ event ∈ e.emits c, event.IsUnlabeled := by
  cases e
  case loadInt32 | accessSlot => simp [emits]
  case loadInt64 value =>
    simp only [emits]
    split
    · simp
    · simp [Operand.labels]
  case call | callVirtual | callDeclared | construct | constructDelegate | loadMethod
      | classToken =>
    exact Event.isUnlabeled_ofToken _ _
  case accessField opcode field =>
    intro event hevent
    obtain hevent | hevent := List.mem_append.mp hevent
    · split at hevent
      · cases List.mem_singleton.mp hevent
        exact ⟨rfl, rfl⟩
      · cases hevent
    · exact Event.isUnlabeled_ofToken _ _ event hevent
  all_goals
    simp only [emits]
    repeat' split
  all_goals simp [Operand.labels]

/-- The targets of the open switch table. -/
def Labels.table (labels : Labels) : List LabelId :=
  labels.switch.elim [] Array.toList

namespace Effect
variable {c d : Context} {op : Operation} {label : Option Label} {events : List Event}

/-- Labels occur in the events of jumps, placements and switch tables only. -/
lemma isUnlabeled_or (h : Effect c op label events d) :
    (op.placement? = none ∧ ∀ event ∈ events, event.IsUnlabeled) ∨
    (∃ opcode label, op = .jump opcode label ∧ events = [.jump opcode label]) ∨
    (∃ label leave, op = .place label leave ∧ events = [.line (.label label.id leave)]) ∨
    ∃ targets, op = .endSwitch ∧ c.labels.switch = some targets ∧
      events = [.line (.instruction ⟨.switch, .switch targets.toList⟩)] := by
  cases h with
  | emit e => exact .inl ⟨rfl, e.isUnlabeled_emits c⟩
  | jump => exact .inr (.inl ⟨_, _, rfl, rfl⟩)
  | place => exact .inr (.inr (.inl ⟨_, _, rfl, rfl⟩))
  | endSwitch opened => exact .inr (.inr (.inr ⟨_, rfl, opened, rfl⟩))
  | beginMethod closed found =>
    refine .inl ⟨rfl, ?_⟩
    simp only [Operation.emits, found]
    split <;> simp
  | refused places => exact .inl ⟨places, by simp⟩
  | _ => exact .inl ⟨rfl, by simp [Operation.emits]⟩

lemma label?_events (h : Effect c op label events d) :
    events.filterMap Event.label? = op.placement?.toList := by
  obtain ⟨hplaces, hevents⟩ | ⟨_, _, rfl, rfl⟩ | ⟨_, _, rfl, rfl⟩ | ⟨_, rfl, -, rfl⟩ :=
    h.isUnlabeled_or
  · rw [hplaces]
    exact List.filterMap_eq_nil_iff.mpr fun event hevent => (hevents event hevent).1
  all_goals rfl

/-- Jumps go to labels that the operation is given, or that the switch table has collected. -/
lemma targets_events (h : Effect c op label events d) {event : Event} (hevent : event ∈ events)
    {id : LabelId} (hid : id ∈ event.targets) : id ∈ op.labels.map Label.id ++ c.labels.table := by
  obtain ⟨-, hevents⟩ | ⟨_, _, rfl, rfl⟩ | ⟨_, _, rfl, rfl⟩ | ⟨_, rfl, hopened, rfl⟩ :=
    h.isUnlabeled_or
  · rw [(hevents event hevent).2] at hid
    cases hid
  · cases List.mem_singleton.mp hevent
    exact List.mem_append_left _ hid
  · cases List.mem_singleton.mp hevent
    cases hid
  · cases List.mem_singleton.mp hevent
    refine List.mem_append_right _ ?_
    rwa [Labels.table, hopened]

/-- The switch table collects labels that the operation is given. -/
lemma table_subset (h : Effect c op label events d) {id : LabelId} (hid : id ∈ d.labels.table) :
    id ∈ op.labels.map Label.id ++ c.labels.table := by
  cases h
  case switchTarget label first targets opened =>
    have hmem : id ∈ targets.toList ++ [label.id] := by simpa [Labels.table] using hid
    rw [Labels.table, opened]
    obtain hmem | hmem := List.mem_append.mp hmem
    · exact List.mem_append_right _ hmem
    · exact List.mem_append_left _ hmem
  case beginSwitch => cases hid
  case endSwitch => cases hid
  case keep keeps => exact List.mem_append_right _ (keeps.labels ▸ hid)
  case emit e => exact List.mem_append_right _ (by rwa [Context.labels_emitted] at hid)
  case beginMethod => exact List.mem_append_right _ (c.labels_emitted _ ▸ hid)
  case endMethod =>
    rw [Context.labels_emitted] at hid
    exact List.mem_append_right _ hid
  case allocLocal => exact List.mem_append_right _ (c.labels_emitted _ ▸ hid)
  all_goals exact List.mem_append_right _ hid
end Effect

lemma Line.Settles.label?_eq {l m : Line} (h : l.Settles m) : m.label? = l.label? := by
  cases h <;> rfl

lemma Line.Settles.targets_eq {l m : Line} (h : l.Settles m) : m.targets = l.targets := by
  cases h <;> rfl

namespace Listing
variable {listing : Listing} {lines : List Line}

lemma Settles.filterMap_label? (h : listing.Settles lines) :
    listing.lines.toList.filterMap Line.label? = lines.filterMap Line.label? := by
  unfold Settles at h
  generalize listing.lines.toList = settled at h
  induction h with
  | nil => rfl
  | cons hline _ ih => rw [List.filterMap_cons, List.filterMap_cons, hline.label?_eq, ih]

lemma mem_labelLines {id : LabelId} {index : Nat} :
    (id, index) ∈ listing.labelLines ↔ ∃ leave, listing.lines[index]? = some (.label id leave) := by
  simp only [labelLines, List.mem_filterMap, Prod.exists, List.mk_mem_zipIdx_iff_getElem?,
    Array.getElem?_toList]
  constructor
  · rintro ⟨line, index', hline, hid⟩
    cases line <;> cases hid
    exact ⟨_, hline⟩
  · rintro ⟨leave, hline⟩
    exact ⟨_, _, hline, rfl⟩

lemma mem_branchTargets {id : LabelId} {index : Nat} :
    (index, id) ∈ listing.branchTargets ↔
      ∃ line, listing.lines[index]? = some line ∧ id ∈ line.targets := by
  simp only [branchTargets, List.mem_flatMap, Prod.exists, List.mk_mem_zipIdx_iff_getElem?,
    Array.getElem?_toList, List.mem_map, Prod.mk.injEq]
  constructor
  · rintro ⟨line, index', hline, id', hid, rfl, rfl⟩
    exact ⟨line, hline, hid⟩
  · rintro ⟨line, hline, hid⟩
    exact ⟨line, index, hline, id, hid, rfl, rfl⟩

/-- The labels of the label lines, in line order. -/
lemma map_fst_labelLines (listing : Listing) :
    listing.labelLines.map Prod.fst =
      (listing.lines.toList.filterMap Line.label?).map Prod.fst := by
  rw [labelLines, List.map_filterMap, List.map_filterMap]
  nth_rewrite 2 [← List.zipIdx_map_fst 0 listing.lines.toList]
  rw [List.filterMap_map]
  refine List.filterMap_congr ?_
  rintro ⟨line, index⟩ -
  cases line <;> rfl

/-- Where no label has two lines, the last line of each label is its only one. -/
lemma labelPositions_eq (h : (listing.labelLines.map Prod.fst).Nodup) :
    listing.labelPositions = listing.labelLines := by
  unfold labelPositions
  generalize listing.labelLines = entries at h
  induction entries with
  | nil => rfl
  | cons entry entries ih =>
    obtain ⟨hnew, hrest⟩ := List.nodup_cons.mp h
    rw [List.foldr_cons, ih hrest, if_neg]
    simpa using hnew

end Listing

namespace Peephole.Queue

lemma filterMap_label?_emit (queue : Queue) (event : Event) :
    (queue.emit event).2.filterMap Line.label? = event.label?.toList := by
  have hnone (is : List Instruction) : (is.map Line.instruction).filterMap Line.label? = [] := by
    simp [Line.label?]
  cases event with
  | line written =>
    rw [emit, List.filterMap_append, hnone]
    cases written <;> rfl
  | jump opcode label =>
    rw [emit, List.filterMap_append, hnone]
    rfl
  | _ => exact hnone _

/-- Label lines are committed where they are asked for. -/
lemma filterMap_label?_emitAll (queue : Queue) (events : List Event) :
    (queue.emitAll events).2.filterMap Line.label? = events.filterMap Event.label? := by
  induction events generalizing queue with
  | nil => rfl
  | cons event events ih =>
    rw [emitAll, List.filterMap_append, ih, filterMap_label?_emit, List.filterMap_cons]
    cases event.label? <;> rfl

end Peephole.Queue

/-- The open method was open before, or is known. No method is forgotten. -/
lemma Effect.method {c d : Context} {op : Operation} {label : Option Label} {events : List Event}
    (h : Effect c op label events d) : c.image.methods.size ≤ d.image.methods.size ∧
      ∀ frame, d.frame = some frame → frame.method.index < c.image.methods.size ∨
        ∃ frame', c.frame = some frame' ∧ frame'.method = frame.method := by
  have hmethods (events : List Event) :
      c.image.methods.size ≤ (c.emitted events).image.methods.size := by
    rw [Context.image_emitted]
  cases h with
  | emit e =>
    rw [Context.image_emitted, Context.frame_emitted]
    exact ⟨le_rfl, fun frame h => .inr ⟨frame, h, rfl⟩⟩
  | keep keeps =>
    rw [keeps.frame]
    exact ⟨keeps.methods, fun frame h => .inr ⟨frame, h, rfl⟩⟩
  | beginMethod closed found frame of =>
    refine ⟨hmethods _, ?_⟩
    rintro _ ⟨⟩
    rw [of]
    exact .inl (Array.getElem?_eq_some_iff.mp (fetch_eq_ok.mp found)).1
  | endMethod =>
    rw [Context.image_emitted, Context.frame_emitted]
    exact ⟨le_rfl, fun frame h => nomatch h⟩
  | allocLocal type name opened frame' same =>
    refine ⟨hmethods _, ?_⟩
    rintro _ ⟨⟩
    exact .inr ⟨_, opened, same.symm⟩
  | _ => exact ⟨le_rfl, fun frame h => .inr ⟨frame, h, rfl⟩⟩

namespace Run
variable {rule : History → Operation → Prop} {options : Options} {history : History} {b c : Context}

lemma filterMap_label?_events (run : Run rule b history c) :
    history.events.filterMap Event.label? = history.placements := by
  induction run with
  | start => rfl
  | step _ _ step ih =>
    rw [History.placements_record, ← step.effect.label?_events, ← ih]
    exact List.filterMap_append

/-- The label lines are the placements, in order. -/
lemma filterMap_label? (run : Run rule (.create options) history c) :
    c.listing.lines.toList.filterMap Line.label? = history.placements := by
  rw [run.settles.filterMap_label?, ← run.filterMap_label?_events]
  exact Queue.filterMap_label?_emitAll _ _

/-- Jumps and switch tables go to labels that were handed out. -/
lemma targets_handed (run : Run UsesOwnLabels (.create options) history c) :
    (∀ id ∈ c.labels.table, id ∈ history.ids) ∧
      ∀ event ∈ history.events, ∀ id ∈ event.targets, id ∈ history.ids := by
  induction run with
  | start => exact ⟨by simp [Labels.table, Context.create], by simp⟩
  | step _ allowed step ih =>
    rename_i history c op label events d _
    have hgiven {id : LabelId} (hid : id ∈ op.labels.map Label.id ++ c.labels.table) :
        id ∈ (history.record op label events).ids := by
      rw [History.ids_record]
      refine List.mem_append_left _ ?_
      obtain hid | hid := List.mem_append.mp hid
      · obtain ⟨given, hgiven, rfl⟩ := List.mem_map.mp hid
        exact List.mem_map_of_mem (allowed given hgiven)
      · exact ih.1 _ hid
    refine ⟨fun id hid => hgiven (step.effect.table_subset hid), ?_⟩
    intro event hevent id hid
    obtain hevent | hevent := List.mem_append.mp hevent
    · rw [History.ids_record]
      exact List.mem_append_left _ (ih.2 event hevent id hid)
    · exact hgiven (step.effect.targets_events hevent hid)

/-- The open method is known. -/
lemma method_found (run : Run rule (.create options) history c) {frame : Frame}
    (h : c.frame = some frame) : ∃ info, c.image.getMethod frame.method = .ok info := by
  have hindex : frame.method.index < c.image.methods.size := by
    induction run generalizing frame with
    | start => cases h
    | step _ _ step ih =>
      obtain ⟨hmethods, hframe⟩ := step.effect.method
      obtain hfound | ⟨frame', hframe', hsame⟩ := hframe frame h
      · exact hfound.trans_le hmethods
      · exact (hsame ▸ ih hframe').trans_le hmethods
  exact ⟨_, fetch_eq_ok.mpr (Array.getElem?_eq_getElem hindex)⟩

end Run

namespace Gen
variable {c : Context}

/-- The end of a known method is violated where a label or a switch table is left open. -/
lemma endMethod_violates_iff {frame : Frame} {info : MethodInfo} (hframe : c.frame = some frame)
    (hinfo : c.image.getMethod frame.method = .ok info) :
    (∃ v d, endMethod c = .error (.violation v) d) ↔ ¬c.labels.Complete := by
  constructor
  · rintro ⟨v, d, hviolates⟩ hcomplete
    have hflushed : c.flushed.frame = some frame := hframe
    have hread : readImage (·.getMethod frame.method) { c.flushed with frame := none } =
      .ok info { c.flushed with frame := none } := readImage_apply hinfo
    have hcheck : c.flushed.labels.checkComplete (.method info.name) = .ok () :=
      Labels.checkComplete_complete hcomplete _
    simp only [endMethod, bind_apply, flush_apply, get_apply, hflushed, modify_apply, hread, hcheck,
      orViolate_ok, directive_apply] at hviolates
    cases hviolates
  · intro hincomplete
    refine (endMethod_ensures c).violates ?_
    rintro _ _ ⟨_, _, -, -, hcomplete, -⟩
    exact hincomplete hcomplete

/-- Placing a label that was handed out is violated where it is placed already. -/
lemma placeAs_violates_iff {label : Label} {mark : Mark} (h : c.labels.mark? label.id = some mark)
    (leave : Bool) :
    (∃ v d, placeAs leave label c = .error (.violation v) d) ↔ mark ≠ .unplaced := by
  constructor
  · rintro ⟨v, d, hviolates⟩ rfl
    rw [placeAs_apply leave label h] at hviolates
    cases hviolates
  · intro hplaced
    obtain ⟨v, hviolates⟩ := placeAs_violates leave label (c := c) (by simpa [h] using hplaced)
    exact ⟨v, _, hviolates⟩

end Gen

/-- The discipline of labels in a unit, after given operations. -/
structure Disciplined (history : History) (c : Context) : Prop where
  /-- The labels handed out have the numbers from one on, each once. -/
  handed : history.ids = (List.range' 1 c.labels.created).map LabelId.mk ∧ history.ids.Nodup
  /-- Every label handed out is either not placed or placed, and is placed once. -/
  partition : (c.labels.unplaced ++ history.placements.map Prod.fst).Perm history.ids
  placed : c.labels.placed = history.placements.length
  /-- The label lines are the placements, in order and with how each label was placed. -/
  lines : c.listing.lines.toList.filterMap Line.label? = history.placements
  /-- Placing a label is violated exactly where it is placed already. -/
  place : ∀ label ∈ history.labels, ∀ leave,
    (∃ v d, Gen.placeAs leave label c = .error (.violation v) d) ↔
      label.id ∈ history.placements.map Prod.fst
  /-- The end of a method is violated exactly where a label or a switch table is left open. -/
  endMethod : c.frame.isSome →
    ((∃ v d, Gen.endMethod c = .error (.violation v) d) ↔
      (∃ id ∈ history.ids, id ∉ history.placements.map Prod.fst) ∨ c.labels.switch.isSome)
  /-- In the final listing, every target of a jump or a switch table has one line, and its position
  is known. -/
  finish : ∀ listing d, Gen.finish c = .ok listing d → ∀ jump id,
    (jump, id) ∈ listing.branchTargets →
      ∃ index leave, listing.lines[index]? = some (.label id leave) ∧
        (id, index) ∈ listing.labelPositions ∧
        ∀ index' leave', listing.lines[index']? = some (.label id leave') → index' = index

namespace Run
variable {options : Options} {history : History} {c d : Context} {listing : Listing}

/-- The label lines of the final listing are the placements. -/
lemma filterMap_label?_finish {rule : History → Operation → Prop}
    (run : Run rule (.create options) history c) (hfinish : Gen.finish c = .ok listing d) :
    listing.lines.toList.filterMap Line.label? = history.placements := by
  obtain ⟨-, -, rfl⟩ := (Gen.finish_ensures c).done hfinish
  have hsettles := (c.listing.settles_self.append
    (c.queue.flush.2.map .instruction)).resolveFrom 0 c.labels.isLeaveTarget
  rw [Context.listing_flushed, hsettles.filterMap_label?, List.filterMap_append,
    run.filterMap_label?]
  simp [Line.label?]

/-- Where all labels are placed, the targets of all lines are. -/
lemma target_placed (run : Run UsesOwnLabels (.create options) history c)
    (hcomplete : c.labels.Complete) {line : Line} (hline : line ∈ c.flushed.listing.lines)
    {id : LabelId} (hid : id ∈ line.targets) : id ∈ history.placements.map Prod.fst := by
  obtain ⟨event, hevent, l, hl, hsettles⟩ := run.exists_event hline
  have htarget : id ∈ event.targets := by
    rw [hsettles.targets_eq] at hid
    rwa [Event.targets, hl]
  exact (run.ledger.complete_iff.mp hcomplete).1 id (run.targets_handed.2 event hevent id htarget)

/-- A unit that ends has placed the targets of its jumps. -/
lemma target_placed_finish (run : Run UsesOwnLabels (.create options) history c)
    (hfinish : Gen.finish c = .ok listing d) {line : Line} (hline : line ∈ listing.lines)
    {id : LabelId} (hid : id ∈ line.targets) : id ∈ history.placements.map Prod.fst := by
  obtain ⟨-, hcomplete, rfl⟩ := (Gen.finish_ensures c).done hfinish
  obtain ⟨l, hl, hresolved⟩ :=
    (c.flushed.listing.settles_self.resolveFrom 0 c.labels.isLeaveTarget).exists_mem hline
  exact run.target_placed hcomplete (Array.mem_toList_iff.mp hl) (hresolved.targets_eq ▸ hid)

end Run

end CilAssembly
