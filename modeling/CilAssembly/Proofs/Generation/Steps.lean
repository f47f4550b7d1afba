import CilAssembly.Context.Branches
import CilAssembly.Context.Emission
import CilAssembly.Proofs.Peephole.Window
import Mathlib.Data.List.Chain

/-!
Steps of generation as functions on contexts. What a context will have emitted is seen once its
window is committed; where no rule applies, queueing an instruction appends it there.
-/
namespace CilAssembly

lemma fetch_eq_ok {α : Type} {table : Array α} {index : Nat} {entry : α} :
    fetch table index = .ok entry ↔ table[index]? = some entry := by
  unfold fetch
  cases table[index]? <;> simp

namespace Gen
variable {α β : Type}

@[simp] lemma pure_apply (a : α) (c : Context) : (pure a : Gen α) c = .ok a c := rfl

@[simp] lemma bind_apply (x : Gen α) (f : α → Gen β) (c : Context) :
    (x >>= f) c = match x c with
      | .ok a d => f a d
      | .error e d => .error e d := by
  change EStateM.bind x f c = _
  unfold EStateM.bind
  cases x c <;> rfl

lemma bind_eq_ok {x : Gen α} {f : α → Gen β} {b : β} {c e : Context}
    (h : (x >>= f) c = .ok b e) : ∃ a d, x c = .ok a d ∧ f a d = .ok b e := by
  rw [bind_apply] at h
  split at h
  case h_1 a d hd => exact ⟨a, d, hd, h⟩
  case h_2 => cases h

@[simp] lemma map_apply (f : α → β) (x : Gen α) (c : Context) :
    (f <$> x) c = match x c with
      | .ok a d => .ok (f a) d
      | .error e d => .error e d := by
  change EStateM.map f x c = _
  unfold EStateM.map
  cases x c <;> rfl

@[simp] lemma get_apply (c : Context) : (get : Gen Context) c = .ok c c := rfl

@[simp] lemma modify_apply (f : Context → Context) (c : Context) :
    (modify f : Gen Unit) c = .ok () (f c) := rfl

@[simp] lemma orViolate_ok (a : α) (c : Context) :
    (orViolate (.ok a) : Gen α) c = .ok a c := rfl

end Gen

namespace Listing

def append (listing : Listing) (lines : List Line) : Listing :=
  ⟨listing.lines ++ lines.toArray⟩

@[simp] lemma append_nil (listing : Listing) : listing.append [] = listing := by
  simp [append]

@[simp] lemma append_append (listing : Listing) (lines more : List Line) :
    (listing.append lines).append more = listing.append (lines ++ more) := by
  simp [append]

lemma push_eq_append (listing : Listing) (line : Line) :
    listing.push line = listing.append [line] := by
  simp [push, append]

lemma pushInstructions_eq_append (listing : Listing) (is : List Instruction) :
    listing.pushInstructions is = listing.append (is.map .instruction) := by
  induction is generalizing listing with
  | nil => simp [pushInstructions]
  | cons i is ih =>
    have hcons : listing.pushInstructions (i :: is) =
        (listing.pushInstruction i).pushInstructions is := rfl
    rw [hcons, ih, pushInstruction, push_eq_append, append_append]
    rfl

end Listing

/-- The next label is not placed when it is handed out. -/
lemma Labels.mark?_next (labels : Labels) : labels.add.mark? labels.next = some .unplaced := by
  simp [mark?, next, created, add]

namespace Context
open Peephole

/-- Queues an instruction. -/
def enqueued (c : Context) (i : Instruction) : Context :=
  { c with
    queue := (c.queue.push i).1
    listing := c.listing.pushInstructions (c.queue.push i).2 }

/-- Queues instructions one after another. -/
def enqueuedAll (c : Context) (is : List Instruction) : Context :=
  is.foldl enqueued c

/-- Commits the window. -/
def flushed (c : Context) : Context :=
  { c with queue.window := [], listing := c.listing.pushInstructions c.queue.window.reverse }

/-- Appends lines to the listing. -/
def appended (c : Context) (lines : List Line) : Context :=
  { c with listing := c.listing.append lines }

/-- Changes the labels. -/
def labeled (c : Context) (labels : Labels) : Context :=
  { c with labels }

/-- Changes the height of the stack. -/
def adjusted (c : Context) (delta : Int) : Context :=
  { c with stack := ⟨c.stack.height + delta, max c.stack.peak (c.stack.height + delta).toNat⟩ }

/-- Reports diagnostics. -/
def warned (c : Context) (warnings : List Diagnostic) : Context :=
  { c with reporter := warnings.foldl Reporter.report c.reporter }

/-- Appends lines that leave the stack as high as it was and need `peak` room on it, places `labels`
new labels and reports warnings. -/
def after (c : Context) (lines : List Line) (peak labels : Nat) (warnings : List Diagnostic) :
    Context :=
  { c with
    listing := c.listing.append lines
    stack.peak := max c.stack.peak peak
    labels.marks := c.labels.marks ++ Array.replicate labels (.placed false)
    reporter := warnings.foldl Reporter.report c.reporter }

/-- No rule will apply to the instruction when it is queued. -/
def Accepts (c : Context) (i : Instruction) : Prop :=
  ∀ j ∈ c.queue.window.head?, Inert j i

section
variable {c : Context} {i j : Instruction} {is js : List Instruction} (delta : Int)
  (lines more : List Line)

@[simp] lemma enqueued_eq : c.enqueued i = c.enqueuedAll [i] := rfl

@[simp] lemma enqueuedAll_nil : c.enqueuedAll [] = c := rfl

@[simp] lemma enqueuedAll_enqueuedAll :
    (c.enqueuedAll is).enqueuedAll js = c.enqueuedAll (is ++ js) :=
  List.foldl_append.symm

/-- Queueing instructions changes the queue and the listing only. -/
lemma enqueuedAll_eq (is : List Instruction) : c.enqueuedAll is =
    { c with queue := (c.enqueuedAll is).queue, listing := (c.enqueuedAll is).listing } := by
  induction is generalizing c with
  | nil => rfl
  | cons i is ih => exact ih

@[simp] lemma stack_enqueuedAll : (c.enqueuedAll is).stack = c.stack := by rw [enqueuedAll_eq]
@[simp] lemma lexical_enqueuedAll : (c.enqueuedAll is).lexical = c.lexical := by rw [enqueuedAll_eq]

@[simp] lemma enqueuedAll_adjusted :
    (c.adjusted delta).enqueuedAll is = (c.enqueuedAll is).adjusted delta := by
  induction is generalizing c with
  | nil => rfl
  | cons i is ih => exact ih (c := c.enqueued i)

@[simp] lemma flushed_adjusted : (c.adjusted delta).flushed = c.flushed.adjusted delta := rfl
@[simp] lemma height_adjusted : (c.adjusted delta).stack.height = c.stack.height + delta := rfl
@[simp] lemma lexical_adjusted : (c.adjusted delta).lexical = c.lexical := rfl

/-- The height goes up and back. -/
lemma stack_adjusted_back (h : 0 ≤ delta) :
    ((c.adjusted delta).adjusted (-delta)).stack =
      ⟨c.stack.height, max c.stack.peak (c.stack.height + delta).toNat⟩ := by
  have hheight : c.stack.height + delta + -delta = c.stack.height := Int.add_neg_cancel_right ..
  have hpeak : max (max c.stack.peak (c.stack.height + delta).toNat) c.stack.height.toNat =
      max c.stack.peak (c.stack.height + delta).toNat := by omega
  simp only [adjusted, hheight, hpeak]

@[simp] lemma appended_nil : c.appended [] = c := by
  simp [appended]

@[simp] lemma appended_appended :
    (c.appended lines).appended more = c.appended (lines ++ more) := by
  simp [appended]

@[simp] lemma flushed_labeled (labels : Labels) :
    (c.labeled labels).flushed = c.flushed.labeled labels := rfl
@[simp] lemma appended_labeled (labels : Labels) :
    (c.labeled labels).appended lines = (c.appended lines).labeled labels := rfl
@[simp] lemma labeled_labeled (labels labels' : Labels) :
    (c.labeled labels).labeled labels' = c.labeled labels' := rfl
@[simp] lemma labels_labeled (labels : Labels) : (c.labeled labels).labels = labels := rfl

@[simp] lemma stack_flushed : c.flushed.stack = c.stack := rfl
@[simp] lemma stack_appended : (c.appended lines).stack = c.stack := rfl

lemma after_nil : c.after [] 0 0 [] = c := by
  simp [after]

lemma after_appended (peak labels : Nat) (warnings : List Diagnostic) :
    (c.appended lines).after more peak labels warnings =
      c.after (lines ++ more) peak labels warnings := by
  simp [after, appended]

lemma warned_after (peak labels : Nat) (warnings warnings' : List Diagnostic) :
    (c.after lines peak labels warnings).warned warnings' =
      c.after lines peak labels (warnings ++ warnings') := by
  simp [after, warned]

lemma after_after (peak peak' labels labels' : Nat) (warnings warnings' : List Diagnostic) :
    (c.after lines peak labels warnings).after more peak' labels' warnings' =
      c.after (lines ++ more) (max peak peak') (labels + labels') (warnings ++ warnings') := by
  simp [after, max_assoc, ← Array.replicate_append_replicate]

@[simp] lemma flushed_appended_flushed :
    (c.flushed.appended lines).flushed = c.flushed.appended lines := by
  simp [flushed, appended, Listing.pushInstructions_eq_append]

section
variable {d : Context} (h : c.flushed = d)
include h

lemma image_of_flushed : c.image = d.image := h ▸ rfl
lemma lexical_of_flushed : c.lexical = d.lexical := h ▸ rfl
lemma labels_of_flushed : c.labels = d.labels := h ▸ rfl
lemma stack_of_flushed : c.stack = d.stack := h ▸ rfl

end

section
variable {d : Context} {lines : List Line} {peak labels : Nat} {warnings : List Diagnostic}
  (h : d.flushed = c.flushed.after lines peak labels warnings)
include h

lemma image_of_after : d.image = c.image := (image_of_flushed h).trans rfl
lemma lexical_of_after : d.lexical = c.lexical := (lexical_of_flushed h).trans rfl
lemma height_of_after : d.stack.height = c.stack.height :=
  (congrArg StackUse.height (stack_of_flushed h)).trans rfl

lemma created_of_after : d.labels.created = c.labels.created + labels := by
  rw [labels_of_flushed h]
  simp [after, flushed, Labels.created]

lemma reporter_of_after : d.reporter = (c.warned warnings).reporter := by
  change d.flushed.reporter = _
  rw [h]
  rfl

end

/-- What is reported later comes after what was reported before. -/
lemma reporter_warned {d : Context} {warnings : List Diagnostic}
    (h : d.reporter = (c.warned warnings).reporter) (later : List Diagnostic) :
    (d.warned later).reporter = (c.warned (warnings ++ later)).reporter := by
  simp only [warned, h, List.foldl_append]

/-- Generation stopped at `d`: it reported warnings, it needed `peak` room on the stack, and no rule
applied. -/
structure Stops (c d : Context) (peak : Nat) (warnings : List Diagnostic) : Prop where
  reporter : d.reporter = (c.warned warnings).reporter
  peak : d.stack.peak = max c.stack.peak peak
  removals : d.queue.removals = c.queue.removals

/-- What led to the context that generation went on from counts too. -/
lemma Stops.after {d e : Context} {lines : List Line} {peak peak' labels : Nat}
    {warnings warnings' : List Diagnostic} (h : d.Stops e peak' warnings')
    (hd : d.flushed = c.flushed.after lines peak labels warnings) :
    c.Stops e (max peak peak') (warnings ++ warnings') := by
  have hpeak : d.stack.peak = max c.stack.peak peak := congrArg (·.stack.peak) hd
  have hremovals : d.queue.removals = c.queue.removals := congrArg (·.queue.removals) hd
  refine ⟨?_, ?_, h.removals.trans hremovals⟩
  · rw [h.reporter, reporter_warned (reporter_of_after hd)]
  · rw [h.peak, hpeak, max_assoc]

lemma quiet_flushed : c.flushed.queue.Quiet :=
  fun _ => rfl

lemma quiet_enqueued (h : c.queue.Quiet) : (c.enqueued i).queue.Quiet :=
  h.apply (.push i)

lemma accepts_flushed : c.flushed.Accepts i := by
  intro j hj
  cases hj

lemma accepts_of_endsRule (h : endsRule i.opcode = false) : c.Accepts i :=
  fun _ _ => inert_of_endsRule h

/-- A queue holds what was put in last, or nothing. -/
lemma accepts_enqueued (h : c.queue.Quiet) (hc : c.Accepts i) (hi : Inert i j) :
    (c.enqueued i).Accepts j := by
  intro k hk
  cases henabled : c.queue.enabled with
  | true =>
    rw [enqueued, push_inert henabled hc] at hk
    cases hk
    exact hi
  | false =>
    rw [enqueued, push_disabled henabled, h henabled] at hk
    cases hk

/-- Queueing an instruction that no rule applies to appends it. -/
lemma flushed_enqueued (h : c.queue.Quiet) (hc : c.Accepts i) :
    (c.enqueued i).flushed = c.flushed.appended [.instruction i] := by
  cases henabled : c.queue.enabled with
  | true =>
    have hwindow : ((i :: c.queue.window).drop capacity).reverse ++
        ((i :: c.queue.window).take capacity).reverse = c.queue.window.reverse ++ [i] := by
      rw [← List.reverse_append, List.take_append_drop, List.reverse_cons]
    simp only [flushed, enqueued, appended, push_inert henabled hc,
      Listing.pushInstructions_eq_append, Listing.append_append, ← List.map_append, hwindow]
    simp
  | false =>
    simp [flushed, enqueued, appended, push_disabled henabled, h henabled,
      Listing.pushInstructions_eq_append]

lemma quiet_enqueuedAll (h : c.queue.Quiet) (is : List Instruction) :
    (c.enqueuedAll is).queue.Quiet := by
  induction is generalizing c with
  | nil => exact h
  | cons i is ih => exact ih (quiet_enqueued h)

/-- Queueing instructions of which no two neighbours fall under a rule appends them. -/
theorem flushed_enqueuedAll (h : c.queue.Quiet) (hfirst : ∀ i ∈ is.head?, c.Accepts i)
    (hchain : is.IsChain Inert) :
    (c.enqueuedAll is).flushed = c.flushed.appended (is.map .instruction) := by
  induction is generalizing c with
  | nil => simp
  | cons i is ih =>
    have hi := hfirst i rfl
    have hnext : ∀ j ∈ is.head?, (c.enqueued i).Accepts j := by
      intro j hj
      exact accepts_enqueued h hi (hchain.rel_head? hj)
    have hrest := ih (quiet_enqueued h) hnext hchain.tail
    rw [flushed_enqueued h hi, appended_appended] at hrest
    exact hrest

end

/-- Between two contexts lines were emitted, and nothing but the stack changed besides. -/
structure Appends (c d : Context) (lines : List Line) : Prop where
  quiet : d.queue.Quiet
  flushed : d.flushed = { c.flushed.appended lines with stack := d.stack }

namespace Appends
variable {c d : Context} {lines : List Line} {i : Instruction} {is : List Instruction}

lemma refl (h : c.queue.Quiet) : c.Appends c [] :=
  ⟨h, by rw [appended_nil]; rfl⟩

lemma adjusted (h : c.Appends d lines) (delta : Int) : c.Appends (d.adjusted delta) lines :=
  ⟨h.quiet, by rw [flushed_adjusted, h.flushed]; rfl⟩

lemma enqueuedAll (h : c.Appends d lines) (hfirst : ∀ i ∈ is.head?, d.Accepts i)
    (hchain : is.IsChain Inert) :
    c.Appends (d.enqueuedAll is) (lines ++ is.map .instruction) := by
  refine ⟨quiet_enqueuedAll h.quiet is, ?_⟩
  rw [flushed_enqueuedAll h.quiet hfirst hchain, h.flushed, stack_enqueuedAll]
  simp [appended]

/-- Nothing is asked of what came before where no rule ends in the first instruction. -/
lemma enqueuedAll_cons (h : c.Appends d lines) (hi : endsRule i.opcode = false)
    (hchain : (i :: is).IsChain Inert) :
    c.Appends (d.enqueuedAll (i :: is)) (lines ++ (i :: is).map .instruction) := by
  apply h.enqueuedAll ?_ hchain
  intro j hj
  cases hj
  exact accepts_of_endsRule hi

lemma barrier (h : c.Appends d lines) (line : Line) :
    c.Appends (d.flushed.appended [line]) (lines ++ [line]) := by
  refine ⟨quiet_flushed, ?_⟩
  rw [flushed_appended_flushed, h.flushed]
  simp [appended]

lemma trans {e : Context} {more : List Line} (h : c.Appends d lines) (h' : d.Appends e more) :
    c.Appends e (lines ++ more) := by
  refine ⟨h'.quiet, ?_⟩
  rw [h'.flushed, h.flushed]
  simp [appended]

lemma image (h : c.Appends d lines) : d.image = c.image :=
  (image_of_flushed h.flushed).trans rfl

lemma lexical (h : c.Appends d lines) : d.lexical = c.lexical :=
  (lexical_of_flushed h.flushed).trans rfl

lemma labels (h : c.Appends d lines) : d.labels = c.labels :=
  (labels_of_flushed h.flushed).trans rfl

/-- Lines after which the stack is as high as before them. -/
lemma after {peak : Nat} (h : c.Appends d lines) (hheight : d.stack.height = c.stack.height)
    (hpeak : d.stack.peak = max c.stack.peak peak) :
    d.flushed = c.flushed.after lines peak 0 [] := by
  rw [h.flushed]
  simp [Context.after, appended, ← hheight, ← hpeak]

end Appends

end Context

namespace Gen

@[simp] lemma simple_apply (opcode : Opcode) (c : Context) :
    simple opcode c = .ok () (c.enqueuedAll [{ opcode }]) := rfl

@[simp] lemma loadInt32_apply (value : Int32) (c : Context) :
    loadInt32 value c = .ok () (c.enqueuedAll [int32Load value]) := rfl

@[simp] lemma arithmetic_apply (opcode : Opcode) (unsigned : Bool) (c : Context) :
    arithmetic opcode unsigned c = .ok () (c.enqueuedAll
      [{ opcode := if c.lexical.checked then opcode.overflowChecked unsigned else opcode }]) := rfl

@[simp] lemma flush_apply (c : Context) : flush c = .ok () c.flushed := rfl

@[simp] lemma appendLine_apply (line : Line) (c : Context) :
    appendLine line c = .ok () (c.flushed.appended [line]) := by
  simp [appendLine, Context.appended, Listing.push_eq_append]

/-- The height changes where it stays a natural number of 31 bits. -/
lemma adjust_apply {c : Context} (delta : Int) (h : 0 ≤ c.stack.height + delta)
    (h' : c.stack.height + delta < 0x80000000) : adjust delta c = .ok () (c.adjusted delta) := by
  have hrange : ¬(c.stack.height + delta < -0x80000000 ∨ 0x80000000 ≤ c.stack.height + delta) := by
    omega
  have hsign : ¬c.stack.height + delta < 0 := by omega
  simp only [adjust, bind_apply, get_apply, if_neg hrange, if_neg hsign, modify_apply,
    Context.adjusted]

/-- Queued instructions do not change the height. -/
lemma adjust_enqueuedAll {c : Context} {height : Int} (hheight : c.stack.height = height)
    (delta : Int) (h : 0 ≤ height + delta) (h' : height + delta < 0x80000000)
    (is : List Instruction) :
    adjust delta (c.enqueuedAll is) = .ok () ((c.enqueuedAll is).adjusted delta) := by
  apply adjust_apply <;> rwa [Context.stack_enqueuedAll, hheight]

/-- The height goes back to what it was before instructions were queued. -/
lemma adjust_back {c : Context} {height : Int} (hheight : c.stack.height = height) (delta : Int)
    (h : 0 ≤ height) (h' : height < 0x80000000) (is : List Instruction) :
    adjust (-delta) ((c.enqueuedAll is).adjusted delta) =
      .ok () (((c.enqueuedAll is).adjusted delta).adjusted (-delta)) := by
  apply adjust_apply <;> rwa [Context.height_adjusted, Context.stack_enqueuedAll, hheight,
    Int.add_neg_cancel_right]

lemma barrier_apply (i : Instruction) (c : Context) :
    barrier i c = .ok () (c.flushed.appended [.instruction i]) :=
  appendLine_apply ..

lemma call_apply {c : Context} {method : MethodId} {callSite : Option Signature} {token : String}
    (h : c.image.methodRef method callSite = .ok token) :
    call method callSite c = .ok () (c.flushed.appended [.instruction ⟨.call, .token token⟩]) := by
  simp [call, methodToken, readImage, h, tokenBarrier, barrier]

section
variable {c : Context}

lemma newLabelOf_apply (h : c.labels.created < Labels.limit) (leave : Bool) :
    newLabelOf leave c = .ok ⟨c.labels.next, leave⟩ (c.labeled c.labels.add) := by
  have hroom : c.labels.checkRoom = .ok () := if_pos h
  simp only [newLabelOf, bind_apply, get_apply, hroom]
  rfl

lemma newLabelOf_exhausted (h : ¬c.labels.created < Labels.limit) (leave : Bool) :
    newLabelOf leave c = .error (.failure .labelsExhausted) c := by
  have hroom : c.labels.checkRoom = .error .labelsExhausted := if_neg h
  simp only [newLabelOf, bind_apply, get_apply, hroom]
  rfl

lemma newLabel_apply (h : c.labels.created < Labels.limit) :
    newLabel c = .ok ⟨c.labels.next, false⟩ (c.labeled c.labels.add) :=
  newLabelOf_apply h false

lemma newLabel_exhausted (h : ¬c.labels.created < Labels.limit) :
    newLabel c = .error (.failure .labelsExhausted) c :=
  newLabelOf_exhausted h false

end

lemma jump_apply {opcode : Opcode} (h : opcode.isBranch = true) (id : LabelId) (c : Context) :
    jump opcode ⟨id, false⟩ c =
      .ok () (c.flushed.appended [.instruction ⟨opcode, .target id⟩]) := by
  simp [jump, h, barrier]

section
variable {c : Context} (leave : Bool) (label : Label)

lemma placeAs_apply (h : c.labels.mark? label.id = some .unplaced) :
    placeAs leave label c = .ok ()
      ((c.flushed.appended [.label label.id leave]).labeled (c.labels.place label.id leave)) := by
  have hcheck : c.flushed.labels.checkPlace label.id = .ok () := by
    have hmark : c.flushed.labels.mark? label.id = some .unplaced := h
    rw [Labels.checkPlace, hmark]
  simp only [placeAs, bind_apply, flush_apply, get_apply, hcheck, orViolate_ok, modify_apply,
    Listing.push_eq_append]
  rfl

/-- A label that is not open cannot be placed. -/
lemma placeAs_violates (h : c.labels.mark? label.id ≠ some .unplaced) :
    ∃ v, placeAs leave label c = .error (.violation v) c.flushed := by
  obtain ⟨v, hcheck⟩ : ∃ v, c.flushed.labels.checkPlace label.id = .error v := by
    have hmark : c.flushed.labels.mark? label.id ≠ some .unplaced := h
    unfold Labels.checkPlace
    split
    · contradiction
    · exact ⟨_, rfl⟩
    · exact ⟨_, rfl⟩
  refine ⟨v, ?_⟩
  simp only [placeAs, bind_apply, flush_apply, get_apply, hcheck]
  rfl

lemma place_apply (h : c.labels.mark? label.id = some .unplaced) :
    place label c = .ok ()
      ((c.flushed.appended [.label label.id false]).labeled (c.labels.place label.id false)) :=
  placeAs_apply false label h

end

end Gen

end CilAssembly
