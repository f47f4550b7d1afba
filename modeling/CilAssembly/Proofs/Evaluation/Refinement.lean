import Mathlib.Order.MinMax
import Mathlib.Tactic.Common
import CilAssembly.Proofs.Evaluation.Execution

/-!
Refinement of straight-line code: wherever the first sequence succeeds, the second one succeeds too,
leaves the same behind and needs no more stack.
-/
namespace CilAssembly.Evaluation
variable {ρ ω ε : Type} {sem : Semantics ρ ω ε}

/-- A computation that succeeds succeeds in each of its parts. -/
lemma bind_ok_iff {α β : Type} {x : Except Fault α} {f : α → Except Fault β} {b : β} :
    (x >>= f) = .ok b ↔ ∃ a, x = .ok a ∧ f a = .ok b := by
  cases x with
  | error e => simp [bind, Except.bind]
  | ok a => simp [bind, Except.bind]

lemma run_cons_eq_ok {i : Instruction} {is : List Instruction} {s : State ρ ω}
    {r : Outcome ρ ω ε} :
    sem.run (i :: is) s = .ok r ↔
      ∃ t effects last, sem.execute i s = .ok (t, effects) ∧ sem.run is t = .ok last ∧
        r = ⟨last.state, effects ++ last.effects, max s.height last.peak⟩ := by
  simp only [Semantics.run, bind_ok_iff, Prod.exists]
  constructor
  · rintro ⟨t, effects, hi, last, his, hr⟩
    exact ⟨t, effects, last, hi, his, (Except.ok.inj hr).symm⟩
  · rintro ⟨t, effects, last, hi, his, rfl⟩
    exact ⟨t, effects, hi, last, his, rfl⟩

lemma height_le_peak {is : List Instruction} {s : State ρ ω} {r : Outcome ρ ω ε}
    (h : sem.run is s = .ok r) : s.height ≤ r.peak := by
  cases is with
  | nil => cases h; exact le_rfl
  | cons i is =>
    obtain ⟨t, effects, last, -, -, rfl⟩ := run_cons_eq_ok.mp h
    exact le_max_left _ _

/-- Running one sequence after another. -/
theorem run_append_eq_ok {xs ys : List Instruction} {s : State ρ ω} {r : Outcome ρ ω ε} :
    sem.run (xs ++ ys) s = .ok r ↔
      ∃ a b, sem.run xs s = .ok a ∧ sem.run ys a.state = .ok b ∧
        r = ⟨b.state, a.effects ++ b.effects, max a.peak b.peak⟩ := by
  induction xs generalizing s r with
  | nil =>
    constructor
    · intro h
      refine ⟨_, r, rfl, h, ?_⟩
      simp [max_eq_right (height_le_peak h)]
    · rintro ⟨a, b, ha, hb, rfl⟩
      cases ha
      simpa [max_eq_right (height_le_peak hb)] using hb
  | cons i xs ih =>
    rw [List.cons_append, run_cons_eq_ok]
    constructor
    · rintro ⟨t, effects, last, hi, hlast, rfl⟩
      obtain ⟨a, b, ha, hb, rfl⟩ := ih.mp hlast
      refine ⟨_, b, run_cons_eq_ok.mpr ⟨t, effects, a, hi, ha, rfl⟩, hb, ?_⟩
      simp [List.append_assoc, max_assoc]
    · rintro ⟨a, b, ha, hb, rfl⟩
      obtain ⟨t, effects, last, hi, hlast, rfl⟩ := run_cons_eq_ok.mp ha
      refine ⟨t, effects, _, hi, ih.mpr ⟨last, b, hlast, hb, rfl⟩, ?_⟩
      simp [List.append_assoc, max_assoc]

/-- Wherever `xs` succeeds, `ys` succeeds with the same state and the same side effects, and its
stack never grows higher than that of `xs` does. -/
def Refines (sem : Semantics ρ ω ε) (xs ys : List Instruction) : Prop :=
  ∀ s r, sem.run xs s = .ok r → ∃ peak, peak ≤ r.peak ∧ sem.run ys s = .ok { r with peak }

namespace Refines

lemma refl (xs : List Instruction) : Refines sem xs xs :=
  fun _ r h => ⟨r.peak, le_rfl, h⟩

lemma trans {xs ys zs : List Instruction} (h₁ : Refines sem xs ys) (h₂ : Refines sem ys zs) :
    Refines sem xs zs := by
  intro s r h
  obtain ⟨p, hp, hy⟩ := h₁ s r h
  obtain ⟨q, hq, hz⟩ := h₂ s _ hy
  exact ⟨q, hq.trans hp, hz⟩

/-- Refinement is a congruence for concatenation. -/
theorem append {xs ys xs' ys' : List Instruction} (h₁ : Refines sem xs xs')
    (h₂ : Refines sem ys ys') : Refines sem (xs ++ ys) (xs' ++ ys') := by
  intro s r h
  obtain ⟨a, b, ha, hb, rfl⟩ := run_append_eq_ok.mp h
  obtain ⟨p, hp, hxs⟩ := h₁ s a ha
  obtain ⟨q, hq, hys⟩ := h₂ a.state b hb
  exact ⟨max p q, max_le_max hp hq, run_append_eq_ok.mpr ⟨_, _, hxs, hys, rfl⟩⟩

lemma append_left (xs : List Instruction) {ys ys' : List Instruction} (h : Refines sem ys ys') :
    Refines sem (xs ++ ys) (xs ++ ys') :=
  (refl xs).append h

lemma append_right {xs xs' : List Instruction} (h : Refines sem xs xs') (ys : List Instruction) :
    Refines sem (xs ++ ys) (xs' ++ ys) :=
  h.append (refl ys)

end Refines

end CilAssembly.Evaluation
