import CilAssembly.Proofs.Generation.Effects
import Mathlib.Data.List.Forall2

/-!
What a unit writes. Events are written in order; the instructions between two boundaries pass the
peephole rules on their own. Lines that are written stay, up to the settling of open jumps.
-/
namespace CilAssembly

/-- The line that an event asks for. -/
def Event.line? : Event → Option Line
  | .plain i => some (.instruction i)
  | .line written => some written
  | .jump opcode label => some (jumpLine opcode label)
  | .boundary | .setPeephole _ => none

namespace Peephole

/-- Queueing instructions between two boundaries, with what leaves the window on the way. -/
def stretch (enabled : Bool) (is : List Instruction) : Queue × List Instruction :=
  ({ enabled } : Queue).applyAll (is.map .push)

/-- What the rules leave of instructions that a new queue gets and then commits. -/
def optimize (enabled : Bool) (is : List Instruction) : List Instruction :=
  ({ enabled } : Queue).committed (is.map .push)

namespace Queue
variable {queue queue' : Queue}

/-- The lines that an event commits. -/
def emit (queue : Queue) : Event → Queue × List Line
  | .plain i => ((queue.push i).1, (queue.push i).2.map .instruction)
  | .line line => (queue.flush.1, queue.flush.2.map .instruction ++ [line])
  | .jump opcode label => (queue.flush.1, queue.flush.2.map .instruction ++ [jumpLine opcode label])
  | .boundary => (queue.flush.1, queue.flush.2.map .instruction)
  | .setPeephole enabled =>
    ((queue.setEnabled enabled).1, (queue.setEnabled enabled).2.map .instruction)

def emitAll (queue : Queue) : List Event → Queue × List Line
  | [] => (queue, [])
  | event :: events =>
    (((queue.emit event).1.emitAll events).1,
      (queue.emit event).2 ++ ((queue.emit event).1.emitAll events).2)

@[simp] lemma emitAll_nil (queue : Queue) : queue.emitAll [] = (queue, []) := rfl

lemma emitAll_directive (queue : Queue) (text : String) : (queue.emitAll [.directive text]).2 =
    queue.flush.2.map .instruction ++ [.directive text] :=
  List.append_nil _

lemma emitAll_append (queue : Queue) (events more : List Event) :
    queue.emitAll (events ++ more) =
      (((queue.emitAll events).1.emitAll more).1,
        (queue.emitAll events).2 ++ ((queue.emitAll events).1.emitAll more).2) := by
  induction events generalizing queue with
  | nil => rfl
  | cons event events ih => simp [emitAll, ih]

/-- Queues that hold the same instructions under the same rules; only the count of removals may
differ. -/
def Alike (queue queue' : Queue) : Prop :=
  queue.window = queue'.window ∧ queue.enabled = queue'.enabled

lemma Alike.apply (h : queue.Alike queue') (op : Operation) :
    (queue.apply op).1.Alike (queue'.apply op).1 ∧ (queue.apply op).2 = (queue'.apply op).2 := by
  obtain ⟨hwindow, henabled⟩ := h
  cases op with
  | push i =>
    simp only [Queue.apply, push, hwindow, henabled]
    split <;> exact ⟨⟨by simp_all, by simp_all⟩, rfl⟩
  | flush => exact ⟨⟨rfl, henabled⟩, congrArg List.reverse hwindow⟩
  | setEnabled enabled =>
    cases enabled with
    | false => exact ⟨⟨rfl, rfl⟩, congrArg List.reverse hwindow⟩
    | true => exact ⟨⟨hwindow, rfl⟩, rfl⟩

lemma applyAll_append (queue : Queue) (ops more : List Operation) :
    queue.applyAll (ops ++ more) =
      (((queue.applyAll ops).1.applyAll more).1,
        (queue.applyAll ops).2 ++ ((queue.applyAll ops).1.applyAll more).2) := by
  induction ops generalizing queue with
  | nil => rfl
  | cons op ops ih => simp [applyAll, ih]

lemma Quiet.applyAll (h : queue.Quiet) (ops : List Operation) : (queue.applyAll ops).1.Quiet := by
  induction ops generalizing queue with
  | nil => exact h
  | cons op ops ih => exact ih (h.apply op)

lemma Quiet.setEnabled_same (h : queue.Quiet) : queue.setEnabled queue.enabled = (queue, []) := by
  obtain ⟨window, enabled, removals⟩ := queue
  cases enabled with
  | true => rfl
  | false =>
    cases h rfl
    rfl

/-- A queue whose rules are off has nothing to commit when they are turned on. -/
lemma Quiet.setEnabled_change (h : queue.Quiet) {on : Bool} (hon : on ≠ queue.enabled) :
    queue.setEnabled on = ({ queue with window := [], enabled := on }, queue.flush.2) := by
  obtain ⟨window, enabled, removals⟩ := queue
  cases on with
  | false => rfl
  | true =>
    cases h (Bool.eq_false_iff.mpr hon.symm)
    rfl

lemma enabled_push (queue : Queue) (i : Instruction) :
    (queue.push i).1.enabled = queue.enabled := by
  unfold push
  split <;> rfl

lemma enabled_pushes (queue : Queue) (is : List Instruction) :
    (queue.applyAll (is.map .push)).1.enabled = queue.enabled := by
  induction is generalizing queue with
  | nil => rfl
  | cons i is ih => exact (ih _).trans (enabled_push queue i)

lemma mem_push {i j : Instruction}
    (h : j ∈ (queue.push i).1.window ∨ j ∈ (queue.push i).2) : j ∈ i :: queue.window := by
  unfold push at h
  split at h
  · rw [List.mem_reverse] at h
    exact mem_settle (h.elim List.mem_of_mem_take List.mem_of_mem_drop)
  · exact h.elim (List.mem_cons_of_mem i) (List.mem_singleton.mp · ▸ List.mem_cons_self)

/-- What an event commits, or leaves in the window, was in the window or is asked for. -/
lemma mem_emit {event : Event} {line : Line}
    (h : line ∈ (queue.emit event).2 ++ (queue.emit event).1.window.map .instruction) :
    line ∈ queue.window.map .instruction ∨ event.line? = some line := by
  have hflush (hline : line ∈ queue.flush.2.map .instruction) :
      line ∈ queue.window.map .instruction := by
    simpa [flush] using hline
  cases event with
  | plain i =>
    rw [emit, ← List.map_append, List.mem_map] at h
    obtain ⟨j, hj, rfl⟩ := h
    obtain rfl | hj := List.mem_cons.mp (mem_push (List.mem_append.mp hj).symm)
    · exact .inr rfl
    · exact .inl (List.mem_map_of_mem hj)
  | line written =>
    obtain h | h := List.mem_append.mp (List.append_nil _ ▸ h)
    · exact .inl (hflush h)
    · exact .inr (congrArg some (List.mem_singleton.mp h).symm)
  | jump opcode label =>
    obtain h | h := List.mem_append.mp (List.append_nil _ ▸ h)
    · exact .inl (hflush h)
    · exact .inr (congrArg some (List.mem_singleton.mp h).symm)
  | boundary => exact .inl (hflush (by simpa [emit, flush] using h))
  | setPeephole enabled =>
    cases enabled with
    | true => exact .inl h
    | false => exact .inl (hflush (by simpa [emit, setEnabled, flush] using h))

lemma mem_emitAll {events : List Event} {line : Line}
    (h : line ∈ (queue.emitAll events).2 ++ (queue.emitAll events).1.window.map .instruction) :
    line ∈ queue.window.map .instruction ∨ ∃ event ∈ events, event.line? = some line := by
  induction events generalizing queue with
  | nil => exact .inl h
  | cons event events ih =>
    have hhead (hline : line ∈ (queue.emit event).2 ++
        (queue.emit event).1.window.map .instruction) :
        line ∈ queue.window.map .instruction ∨
          ∃ event' ∈ event :: events, event'.line? = some line :=
      (mem_emit hline).imp_right fun hline => ⟨event, List.mem_cons_self, hline⟩
    rw [emitAll, List.append_assoc, List.mem_append] at h
    obtain h | h := h
    · exact hhead (List.mem_append_left _ h)
    · obtain h | ⟨event', hevent', hline⟩ := ih h
      · exact hhead (List.mem_append_right _ h)
      · exact .inr ⟨event', List.mem_cons_of_mem _ hevent', hline⟩

end Queue

lemma optimize_eq (enabled : Bool) (is : List Instruction) :
    optimize enabled is = (stretch enabled is).2 ++ (stretch enabled is).1.flush.2 := rfl

lemma stretch_append (enabled : Bool) (is : List Instruction) (i : Instruction) :
    stretch enabled (is ++ [i]) = (((stretch enabled is).1.push i).1,
      (stretch enabled is).2 ++ ((stretch enabled is).1.push i).2) := by
  simp [stretch, Queue.applyAll_append, Queue.applyAll, Queue.apply]

lemma quiet_stretch (enabled : Bool) (is : List Instruction) : (stretch enabled is).1.Quiet :=
  (Queue.quiet_create enabled).applyAll _

lemma enabled_stretch (enabled : Bool) (is : List Instruction) :
    (stretch enabled is).1.enabled = enabled :=
  Queue.enabled_pushes _ is

end Peephole

open Peephole

/-- The lines for events. Instructions wait for the next boundary; there the rules are applied to
them, and to nothing else. A switch of the rules is a boundary where it changes something. -/
def assemble (enabled : Bool) (waiting : List Instruction) : List Event → List Line
  | [] => (optimize enabled waiting).map .instruction
  | .plain i :: events => assemble enabled (waiting ++ [i]) events
  | .line line :: events =>
    (optimize enabled waiting).map .instruction ++ line :: assemble enabled [] events
  | .jump opcode label :: events =>
    (optimize enabled waiting).map .instruction ++
      jumpLine opcode label :: assemble enabled [] events
  | .boundary :: events => (optimize enabled waiting).map .instruction ++ assemble enabled [] events
  | .setPeephole on :: events =>
    if on = enabled then assemble enabled waiting events
    else (optimize enabled waiting).map .instruction ++ assemble on [] events

/-- Everything that events commit, after what has left the window already. The queue holds what is
left of the instructions since the last boundary. -/
lemma emitAll_eq_assemble {enabled : Bool} {is : List Instruction} {queue : Queue}
    (h : queue.Alike (stretch enabled is).1) (events : List Event) :
    (stretch enabled is).2.map .instruction ++
        ((queue.emitAll events).2 ++ (queue.emitAll events).1.flush.2.map .instruction) =
      assemble enabled is events := by
  induction events generalizing enabled is queue with
  | nil =>
    have hflush : queue.flush.2 = (stretch enabled is).1.flush.2 := (h.apply .flush).2
    simp only [Queue.emitAll, assemble, optimize_eq, hflush, List.nil_append, List.map_append]
  | cons event events ih =>
    have hflush : queue.flush.2 = (stretch enabled is).1.flush.2 := (h.apply .flush).2
    have henabled : queue.enabled = enabled := h.2.trans (enabled_stretch enabled is)
    -- After a boundary the window is empty, as in a new queue.
    have hrest (next : Queue) {on : Bool} (hwindow : next.window = []) (hon : next.enabled = on) :
        (next.emitAll events).2 ++ (next.emitAll events).1.flush.2.map .instruction =
          assemble on [] events := by
      have hnew : next.Alike (stretch on []).1 := ⟨hwindow, hon⟩
      exact ih hnew
    have hclosed := hrest queue.flush.1 rfl henabled
    cases event with
    | plain i =>
      obtain ⟨hnext, hnow⟩ := h.apply (.push i)
      have hi : ((queue.push i).1).Alike (stretch enabled (is ++ [i])).1 := by
        rw [stretch_append]
        exact hnext
      rw [assemble, ← ih hi, stretch_append, Queue.emitAll, Queue.emit]
      simp only [Queue.apply] at hnow
      simp only [hnow, List.map_append, List.append_assoc]
    | line line =>
      simp only [assemble, ← hclosed, Queue.emitAll, Queue.emit,
        optimize_eq, hflush, List.map_append, List.append_assoc, List.cons_append, List.nil_append]
    | jump opcode label =>
      simp only [assemble, ← hclosed, Queue.emitAll, Queue.emit,
        optimize_eq, hflush, List.map_append, List.append_assoc, List.cons_append, List.nil_append]
    | boundary =>
      simp only [assemble, ← hclosed, Queue.emitAll, Queue.emit,
        optimize_eq, hflush, List.map_append, List.append_assoc]
    | setPeephole on =>
      have hquiet : queue.Quiet := by
        intro hoff
        rw [h.1]
        exact quiet_stretch enabled is (h.2 ▸ hoff)
      by_cases hsame : on = enabled
      · rw [assemble, if_pos hsame, ← ih h, Queue.emitAll, Queue.emit, hsame, ← henabled,
          hquiet.setEnabled_same]
        rfl
      · have hchange := hquiet.setEnabled_change (henabled ▸ hsame)
        have hnext := hrest { queue with window := [], enabled := on } rfl rfl
        rw [assemble, if_neg hsame, ← hnext, Queue.emitAll, Queue.emit, hchange]
        simp only [optimize_eq, hflush, List.map_append, List.append_assoc]

/-- A new queue commits what `assemble` says, once its window is committed. -/
lemma emitAll_boundary (enabled : Bool) (events : List Event) :
    (({ enabled } : Queue).emitAll (events ++ [.boundary])).2 = assemble enabled [] events := by
  have hnew : ({ enabled } : Queue).Alike (stretch enabled []).1 := ⟨rfl, rfl⟩
  rw [← emitAll_eq_assemble hnew, Queue.emitAll_append]
  simp [Queue.emitAll, Queue.emit, stretch, Queue.applyAll]

/-- The second line is what the first has become: the line itself, or an open jump in one of its two
settled forms. -/
inductive Line.Settles : Line → Line → Prop
  | same (line : Line) : Settles line line
  | jump (id : LabelId) (leave : Bool) :
      Settles (.instruction ⟨.branchOrLeave, .target id⟩)
        (.instruction ⟨if leave then .leave else .br, .target id⟩)

lemma Line.Settles.trans {l m n : Line} (h : l.Settles m) (h' : m.Settles n) : l.Settles n := by
  cases h with
  | same => exact h'
  | jump id leave =>
    cases leave <;> cases h' <;> exact .jump id _

lemma Line.settles_resolve (line : Line) (isLeaveTarget : LabelId → Bool) :
    line.Settles (line.resolve isLeaveTarget) := by
  unfold resolve
  split
  · exact .jump ..
  · exact .same _

namespace Listing

/-- The lines of a listing are what given lines have become. -/
def Settles (lines : List Line) (listing : Listing) : Prop :=
  lines.Forall₂ Line.Settles listing.lines.toList

lemma toList_append (listing : Listing) (lines : List Line) :
    (listing.append lines).lines.toList = listing.lines.toList ++ lines := by
  simp [append]

lemma toList_resolveFrom (listing : Listing) (start : Nat) (isLeaveTarget : LabelId → Bool) :
    (listing.resolveFrom start isLeaveTarget).lines.toList =
      listing.lines.toList.mapIdx fun index line =>
        if start ≤ index then line.resolve isLeaveTarget else line := by
  simp [resolveFrom]

lemma settles_self (listing : Listing) : Settles listing.lines.toList listing :=
  List.forall₂_same.mpr fun line _ => .same line

lemma Settles.append {lines : List Line} {listing : Listing} (h : Settles lines listing)
    (more : List Line) : Settles (lines ++ more) (listing.append more) := by
  rw [Settles, toList_append]
  exact List.rel_append h (List.forall₂_same.mpr fun line _ => .same line)

lemma Settles.resolveFrom {lines : List Line} {listing : Listing} (h : Settles lines listing)
    (start : Nat) (isLeaveTarget : LabelId → Bool) :
    Settles lines (listing.resolveFrom start isLeaveTarget) := by
  obtain ⟨hlength, hget⟩ := List.forall₂_iff_get.mp h
  rw [Settles, toList_resolveFrom]
  refine List.forall₂_iff_get.mpr ⟨by rw [hlength, List.length_mapIdx], ?_⟩
  intro index hindex hindex'
  have hline := hget index hindex (hlength ▸ hindex)
  simp only [List.get_eq_getElem, List.getElem_mapIdx] at hline ⊢
  split
  · exact hline.trans (Line.settles_resolve ..)
  · exact hline

lemma Settles.exists_mem {listing : Listing} {lines : List Line}
    (h : listing.Settles lines) {line : Line} (hline : line ∈ listing.lines) :
    ∃ l ∈ lines, l.Settles line := by
  rw [← Array.mem_toList_iff] at hline
  unfold Settles at h
  generalize listing.lines.toList = settled at h hline
  induction h with
  | nil => cases hline
  | cons hhead _ ih =>
    obtain rfl | hline := List.mem_cons.mp hline
    · exact ⟨_, List.mem_cons_self, hhead⟩
    · obtain ⟨l, hl, hsettles⟩ := ih hline
      exact ⟨l, List.mem_cons_of_mem _ hl, hsettles⟩

end Listing

lemma Context.listing_flushed (c : Context) :
    c.flushed.listing = c.listing.append (c.queue.flush.2.map .instruction) :=
  Listing.pushInstructions_eq_append ..

/-- What events write depends on the queue only. -/
lemma Context.emitted_eq_emitAll (c : Context) (events : List Event) : c.emitted events =
    { c with
      queue := (c.queue.emitAll events).1
      listing := c.listing.append (c.queue.emitAll events).2 } := by
  induction events generalizing c with
  | nil => simp
  | cons event events ih =>
    have hevent : c.emit event = { c with
        queue := (c.queue.emit event).1
        listing := c.listing.append (c.queue.emit event).2 } := by
      cases event <;>
        simp [emit, flushed, appended, enqueued, switched, Queue.emit, Queue.flush,
          Listing.pushInstructions_eq_append]
    rw [Context.emitted_cons, ih, hevent, Queue.emitAll]
    simp only [Listing.append_append]

namespace Effect
variable {c d : Context} {op : Operation} {label : Option Label} {events : List Event}

lemma queue_eq (h : Effect c op label events d) : d.queue = (c.queue.emitAll events).1 := by
  have hemitted (c : Context) : (c.emitted events).queue = (c.queue.emitAll events).1 := by
    rw [Context.emitted_eq_emitAll]
  cases h with
  | emit => exact hemitted c
  | keep keeps => exact keeps.queue
  | beginMethod => exact hemitted c
  | allocLocal => exact hemitted c
  | _ => rfl

/-- An operation appends what its events commit. Only the end of a method does more: it settles
open jumps, and all labels are placed then. -/
lemma listing_or (h : Effect c op label events d) :
    d.listing = c.listing.append (c.queue.emitAll events).2 ∨
      ∃ start text, c.labels.Complete ∧ events = [.directive text] ∧
        d.listing = (c.flushed.listing.resolveFrom start c.labels.isLeaveTarget).append
          [.directive text] := by
  have hemitted : (c.emitted events).listing = c.listing.append (c.queue.emitAll events).2 := by
    rw [Context.emitted_eq_emitAll]
  cases h with
  | keep keeps => exact .inl (keeps.listing.trans c.listing.append_nil.symm)
  | endMethod opened found complete => exact .inr ⟨_, _, complete, rfl, rfl⟩
  | _ => exact .inl hemitted

end Effect

namespace Run
variable {rule : History → Operation → Prop} {b c : Context} {history : History}

lemma queue_eq (run : Run rule b history c) : c.queue = (b.queue.emitAll history.events).1 := by
  induction run with
  | start => rfl
  | step run allowed step ih => rw [step.effect.queue_eq, ih, History.record, Queue.emitAll_append]

/-- The lines of a listing, and then what a run writes, become the lines of the later listing. -/
lemma settles (run : Run rule b history c) :
    c.listing.Settles (b.listing.lines.toList ++ (b.queue.emitAll history.events).2) := by
  induction run with
  | start =>
    rw [Queue.emitAll_nil, List.append_nil]
    exact b.listing.settles_self
  | @step history c op label events d run allowed step ih =>
    rw [History.record, Queue.emitAll_append, ← run.queue_eq, ← List.append_assoc]
    obtain hlisting | ⟨start, text, -, rfl, hlisting⟩ := step.effect.listing_or
    · rw [hlisting]
      exact ih.append _
    · have hcommitted := (ih.append (c.queue.flush.2.map .instruction)).resolveFrom start
        c.labels.isLeaveTarget
      rw [← Context.listing_flushed] at hcommitted
      rw [hlisting, Queue.emitAll_directive, ← List.append_assoc]
      exact hcommitted.append [.directive text]

/-- Once the window is committed, the listing has the lines of all events so far. -/
lemma settles_flushed {options : Options} (run : Run rule (.create options) history c) :
    c.flushed.listing.Settles (assemble options.peephole [] history.events) := by
  have hsettles := run.settles.append (c.queue.flush.2.map .instruction)
  rw [← Context.listing_flushed, List.append_assoc, run.queue_eq] at hsettles
  rw [← emitAll_boundary, Queue.emitAll_append]
  simpa [Queue.emitAll, Queue.emit, Context.create] using hsettles

/-- Every line of a unit comes from an event. -/
lemma exists_event {options : Options} (run : Run rule (.create options) history c) {line : Line}
    (h : line ∈ c.flushed.listing.lines) :
    ∃ event ∈ history.events, ∃ l, event.line? = some l ∧ l.Settles line := by
  have hsettles := run.settles.append (c.queue.flush.2.map .instruction)
  rw [← Context.listing_flushed] at hsettles
  obtain ⟨l, hl, hline⟩ := hsettles.exists_mem h
  have hemitted : l ∈ ((Context.create options).queue.emitAll history.events).2 ++
      ((Context.create options).queue.emitAll history.events).1.window.map .instruction := by
    rw [← run.queue_eq]
    simpa [Queue.flush, Context.create] using hl
  obtain hnone | ⟨event, hevent, hl⟩ := Queue.mem_emitAll hemitted
  · cases hnone
  · exact ⟨event, hevent, l, hl, hline⟩

end Run

end CilAssembly
