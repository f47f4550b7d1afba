import CilAssembly.Proofs.Peephole.Operations
import Mathlib.Data.List.Chain

/-!
What a queue does to the instructions that pass it. It removes some of them, one rule at a time, and
keeps the rest in order. Between two operations no rule applies anywhere in the window, so that a new
instruction can only meet a rule together with the newest one that waits, and only once.
-/
namespace CilAssembly.Peephole

/-- No rule applies to an instruction after another one. -/
def Inert (older newer : Instruction) : Prop :=
  cancels older.opcode newer.opcode = false ∧ repeats older newer = false

/-- A rule may end in the opcode. -/
def endsRule : Opcode → Bool
  | .pop | .neg | .not | .add | .sub | .or | .xor | .mul | .div => true
  | opcode => opcode.isConversion

lemma inert_of_endsRule {older newer : Instruction} (h : endsRule newer.opcode = false) :
    Inert older newer := by
  constructor
  · rw [← Bool.not_eq_true]
    intro hcancels
    have hopcode := cancels_cases hcancels
    generalize newer.opcode = opcode at h hopcode
    obtain ⟨-, rfl⟩ | ⟨-, rfl⟩ | ⟨-, rfl⟩ | ⟨-, rfl⟩ | ⟨-, rfl | rfl | rfl | rfl⟩ |
      ⟨-, rfl | rfl⟩ := hopcode <;> cases h
  · rw [← Bool.not_eq_true]
    intro hrepeats
    simp only [repeats, Instruction.same, Bool.and_eq_true, beq_iff_eq] at hrepeats
    obtain ⟨⟨hsame, -⟩, hconversion⟩ := hrepeats
    rw [hsame] at hconversion
    unfold endsRule at h
    split at h
    case h_10 =>
      rw [hconversion] at h
      cases h
    all_goals cases h

/-- An instruction that no rule applies to stays in the window. -/
lemma settle_inert {i : Instruction} {window : List Instruction}
    (h : ∀ j ∈ window.head?, Inert j i) : settle (i :: window) = (i :: window, 0) := by
  cases window with
  | nil => rfl
  | cons j rest =>
    obtain ⟨hcancels, hrepeats⟩ := h j rfl
    simp [settle, hcancels, hrepeats]

lemma push_inert {queue : Queue} {i : Instruction} (henabled : queue.enabled = true)
    (h : ∀ j ∈ queue.window.head?, Inert j i) :
    queue.push i = ({ queue with window := (i :: queue.window).take capacity },
      ((i :: queue.window).drop capacity).reverse) := by
  simp only [Queue.push, henabled, if_true, settle_inert h, Nat.add_zero]

lemma push_disabled {queue : Queue} (hdisabled : queue.enabled = false) (i : Instruction) :
    queue.push i = (queue, [i]) := by
  simp [Queue.push, hdisabled]

/-- A rule applied once: two neighbours that cancel go, or the second of two neighbours that make the
same conversion. -/
inductive Removes : List Instruction → List Instruction → Prop
  | pair {a b : Instruction} (before after : List Instruction)
      (h : cancels a.opcode b.opcode = true) :
      Removes (before ++ a :: b :: after) (before ++ after)
  | repeated {a b : Instruction} (before after : List Instruction) (h : repeats a b = true) :
      Removes (before ++ a :: b :: after) (before ++ a :: after)

/-- Rules applied one after another, so many times. -/
inductive Removals : Nat → List Instruction → List Instruction → Prop
  | none (is : List Instruction) : Removals 0 is is
  | next {n : Nat} {is js ks : List Instruction} (first : Removes is js) (others : Removals n js ks) :
      Removals (n + 1) is ks

section Derivations
variable {n m : Nat} {is js ks : List Instruction}

lemma Removes.append_left (h : Removes is js) (before : List Instruction) :
    Removes (before ++ is) (before ++ js) := by
  cases h with
  | pair front back h => simpa only [List.append_assoc] using Removes.pair (before ++ front) back h
  | repeated front back h =>
    simpa only [List.append_assoc] using Removes.repeated (before ++ front) back h

lemma Removes.append_right (h : Removes is js) (after : List Instruction) :
    Removes (is ++ after) (js ++ after) := by
  cases h with
  | pair front back h =>
    simpa only [List.append_assoc, List.cons_append] using Removes.pair front (back ++ after) h
  | repeated front back h =>
    simpa only [List.append_assoc, List.cons_append] using Removes.repeated front (back ++ after) h

/-- A rule inserts, reorders and alters nothing. -/
lemma Removes.sublist (h : Removes is js) : js.Sublist is := by
  cases h with
  | pair before after =>
    exact (List.Sublist.refl before).append ((List.sublist_cons_self _ _).trans
      (List.sublist_cons_self _ _))
  | repeated before after =>
    exact (List.Sublist.refl before).append ((List.sublist_cons_self _ _).cons_cons _)

namespace Removals

lemma trans (h : Removals n is js) (h' : Removals m js ks) : Removals (n + m) is ks := by
  induction h with
  | none => rwa [Nat.zero_add]
  | next first _ ih =>
    rw [Nat.add_right_comm]
    exact .next first (ih h')

lemma append_left (h : Removals n is js) (before : List Instruction) :
    Removals n (before ++ is) (before ++ js) := by
  induction h with
  | none => exact .none _
  | next first _ ih => exact .next (first.append_left before) ih

lemma append_right (h : Removals n is js) (after : List Instruction) :
    Removals n (is ++ after) (js ++ after) := by
  induction h with
  | none => exact .none _
  | next first _ ih => exact .next (first.append_right after) ih

lemma sublist (h : Removals n is js) : js.Sublist is := by
  induction h with
  | none => exact .refl _
  | next first _ ih => exact ih.trans first.sublist

end Removals

end Derivations

/-- Settling counts the rules that it applies. -/
lemma removals_settle (window : List Instruction) :
    Removals (settle window).2 window.reverse (settle window).1.reverse := by
  fun_induction settle window with
  | case1 newest older rest h kept count heq ih =>
    rw [heq] at ih
    have hpair := Removes.pair rest.reverse [] h
    rw [List.append_nil] at hpair
    simpa using Removals.next hpair ih
  | case2 newest older rest _ h kept count heq ih =>
    rw [heq, List.reverse_cons] at ih
    simpa using Removals.next (Removes.repeated rest.reverse [] h) ih
  | case3 => exact .none _
  | case4 => exact .none _

/-- Settling only removes instructions. -/
lemma mem_settle {i : Instruction} {window : List Instruction} (h : i ∈ (settle window).1) :
    i ∈ window := by
  have hsublist := (removals_settle window).sublist
  exact (List.reverse_sublist.mp hsublist).subset h

namespace Queue
variable {queue : Queue}

/-- An operation applies as many rules as it counts to what waits and what is put in. -/
lemma removals_apply (h : queue.Quiet) (op : Operation) :
    ∃ n, (queue.apply op).1.removals = queue.removals + n ∧
      Removals n (queue.waiting ++ pushed [op])
        ((queue.apply op).2 ++ (queue.apply op).1.waiting) := by
  cases op with
  | push i =>
    by_cases hon : queue.enabled
    · refine ⟨(settle (i :: queue.window)).2, by simp [Queue.apply, push, hon], ?_⟩
      have hsettle := removals_settle (i :: queue.window)
      rw [List.reverse_cons] at hsettle
      simpa [Queue.apply, push, hon, waiting, ← List.reverse_append] using hsettle
    · have hwindow := h (by simpa using hon)
      refine ⟨0, by simp [Queue.apply, push, hon], ?_⟩
      simpa [Queue.apply, push, hon, waiting, hwindow] using Removals.none [i]
  | flush => exact ⟨0, rfl, by simpa [Queue.apply, flush, waiting] using Removals.none _⟩
  | setEnabled enabled =>
    cases enabled with
    | false =>
      exact ⟨0, rfl, by simpa [Queue.apply, setEnabled, flush, waiting] using Removals.none _⟩
    | true => exact ⟨0, rfl, by simpa [Queue.apply, setEnabled, waiting] using Removals.none _⟩

/-- A run of operations applies as many rules as it counts to what waits and what is put in. -/
lemma removals_applyAll (h : queue.Quiet) (ops : List Operation) :
    ∃ n, (queue.applyAll ops).1.removals = queue.removals + n ∧
      Removals n (queue.waiting ++ pushed ops)
        ((queue.applyAll ops).2 ++ (queue.applyAll ops).1.waiting) := by
  induction ops generalizing queue with
  | nil => exact ⟨0, rfl, by simpa [applyAll] using Removals.none queue.waiting⟩
  | cons op ops ih =>
    obtain ⟨n, hn, hfirst⟩ := removals_apply h op
    obtain ⟨m, hm, hrest⟩ := ih (h.apply op)
    refine ⟨n + m, by simp only [applyAll]; omega, ?_⟩
    have hpushed : pushed (op :: ops) = pushed [op] ++ pushed ops := by cases op <;> rfl
    -- The first operation works before what is yet to be put in, the others after what it commits.
    replace hfirst := hfirst.append_right (pushed ops)
    replace hrest := hrest.append_left (queue.apply op).2
    simp only [applyAll, hpushed, List.append_assoc] at hfirst hrest ⊢
    exact hfirst.trans hrest

end Queue

/-- No rule applies to two neighbours of a window, which stands newest first. -/
def Settled (window : List Instruction) : Prop :=
  window.IsChain fun newer older => Inert older newer

lemma Settled.settle_eq_self {window : List Instruction} (h : Settled window) :
    settle window = (window, 0) := by
  cases window with
  | nil => rfl
  | cons newest rest => exact settle_inert (List.isChain_cons.mp h).1

/-- Tries the rules once at the newest end of a window. -/
def settleOnce : List Instruction → List Instruction × Nat
  | newest :: older :: rest =>
    if cancels older.opcode newest.opcode then (rest, 1)
    else if repeats older newest then (older :: rest, 1)
    else (newest :: older :: rest, 0)
  | window => (window, 0)

lemma settleOnce_le_one (window : List Instruction) : (settleOnce window).2 ≤ 1 := by
  fun_cases settleOnce window <;> simp

section Arrival
variable {window : List Instruction} (h : Settled window) (i : Instruction)
include h

/-- What a rule leaves when an instruction arrives is a part of the window as it was, where no rule
applies any more. -/
lemma Settled.settle_cons : settle (i :: window) = settleOnce (i :: window) := by
  cases window with
  | nil => rfl
  | cons older rest =>
    have hrest : Settled rest := List.IsChain.tail h
    simp only [settle, settleOnce, h.settle_eq_self, hrest.settle_eq_self, Nat.zero_add]

lemma Settled.settleOnce_cons : Settled (settleOnce (i :: window)).1 := by
  cases window with
  | nil => exact .singleton i
  | cons older rest =>
    simp only [settleOnce]
    split
    case isTrue => exact List.IsChain.tail h
    case isFalse hcancels =>
      split
      case isTrue => exact h
      case isFalse hrepeats =>
        exact List.isChain_cons_cons.mpr
          ⟨⟨Bool.eq_false_iff.mpr hcancels, Bool.eq_false_iff.mpr hrepeats⟩, h⟩

end Arrival

namespace Queue
variable {queue : Queue}

/-- What holds of a queue between two operations. -/
structure Tidy (queue : Queue) : Prop where
  bounded : queue.window.length ≤ capacity
  quiet : queue.Quiet
  settled : Settled queue.window

lemma tidy_create (enabled : Bool) : Tidy { enabled } :=
  ⟨Nat.zero_le _, quiet_create enabled, .nil⟩

namespace Tidy

/-- A push applies a rule to the newest instruction that waits and the new one, or none at all. -/
lemma push_removals_le (h : queue.Tidy) (i : Instruction) :
    (queue.push i).1.removals ≤ queue.removals + 1 := by
  by_cases hon : queue.enabled
  · have hcount := settleOnce_le_one (i :: queue.window)
    simp only [push, hon, if_true, h.settled.settle_cons]
    omega
  · simp [push, hon]

lemma apply (h : queue.Tidy) (op : Operation) : (queue.apply op).1.Tidy := by
  have hquiet := h.quiet.apply op
  cases op with
  | push i =>
    by_cases hon : queue.enabled
    -- The oldest instructions leave at the end where the new one has not come in.
    · have hwindow : (queue.apply (.push i)).1.window =
          (settleOnce (i :: queue.window)).1.take capacity := by
        simp [Queue.apply, push, hon, h.settled.settle_cons]
      refine ⟨?_, hquiet, ?_⟩ <;> rw [hwindow]
      · exact List.length_take_le _ _
      · exact List.IsChain.take (h.settled.settleOnce_cons i) capacity
    · rw [Queue.apply, push_disabled (by simpa using hon)]
      exact h
  | flush => exact ⟨Nat.zero_le _, hquiet, .nil⟩
  | setEnabled enabled =>
    cases enabled with
    | false => exact ⟨Nat.zero_le _, hquiet, .nil⟩
    | true => exact ⟨h.bounded, hquiet, h.settled⟩

lemma applyAll (h : queue.Tidy) (ops : List Operation) : (queue.applyAll ops).1.Tidy := by
  induction ops generalizing queue with
  | nil => exact h
  | cons op ops ih => exact ih (h.apply op)

end Tidy

end Queue

/-- After any run of operations at most four instructions wait, none in a queue whose rules are off,
and no rule applies to two neighbours among them. So the next push applies at most one rule and need
not look for a second. What was committed and what waits are what was put in, in order, less what
the rules removed, applied as often as the queue has counted. -/
theorem queues_stay_tidy (enabled : Bool) (ops : List Operation) :
    ∃ queue committed, Queue.applyAll { enabled } ops = (queue, committed) ∧
      queue.window.length ≤ 4 ∧
      (queue.enabled = false → queue.window = []) ∧
      queue.waiting.IsChain Inert ∧
      (∀ i, settle (i :: queue.window) = settleOnce (i :: queue.window) ∧
        (queue.push i).1.removals ≤ queue.removals + 1) ∧
      Removals queue.removals (pushed ops) (committed ++ queue.waiting) ∧
      (committed ++ queue.waiting).Sublist (pushed ops) := by
  have htidy := (Queue.tidy_create enabled).applyAll ops
  obtain ⟨n, hn, hremovals⟩ := Queue.removals_applyAll (Queue.quiet_create enabled) ops
  obtain rfl : _ = n := hn.trans (Nat.zero_add n)
  refine ⟨_, _, rfl, htidy.bounded, htidy.quiet, ?_, ?_, hremovals, hremovals.sublist⟩
  · exact List.isChain_reverse.mpr htidy.settled
  · intro i
    exact ⟨htidy.settled.settle_cons i, htidy.push_removals_le i⟩

/-- Rules that follow from one another apply in different pushes: the load meets the pop when the pop
is put in, after the second complement has gone with the first. -/
example :
    let code := [⟨.ldlocS, .int 9⟩, { opcode := .not }, { opcode := .not }, { opcode := .pop }]
    (List.range 5).map (fun n =>
        (Queue.applyAll { enabled := true } ((code.take n).map .push)).1.removals) =
      [0, 0, 0, 1, 2] := by
  decide

end CilAssembly.Peephole
