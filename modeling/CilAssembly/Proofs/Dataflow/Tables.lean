import CilAssembly.UsageTable
import Mathlib.Data.List.Induction
import Mathlib.Logic.Function.Basic
import Mathlib.Order.Bounds.Defs
import Mathlib.Order.MinMax
import Mathlib.Tactic.Common

/-!
Usage tables against total maps from slots to statuses. Tables are kept under names and made from
one another; whatever happens to them, each reads as the map that the same steps give without
blocks, and its capacity is a number of whole blocks that the steps alone determine.
-/
namespace CilAssembly

namespace UsageTable
variable (table left right : UsageTable) (slot other : Nat) (status : Status)

lemma get_eq : table.get slot = table.slots[slot]?.getD 0 := by
  simp [get, Array.getD_eq_getD_getElem?]

/-- A slot past the end has no status. -/
lemma get_of_capacity_le {table : UsageTable} {slot : Nat} (h : table.capacity ≤ slot) :
    table.get slot = 0 := by
  rw [get_eq, Array.getElem?_eq_none h, Option.getD_none]

@[simp] lemma get_empty : empty.get slot = 0 := by
  rw [get_eq, empty, Array.getElem?_replicate]
  split <;> rfl

@[simp] lemma capacity_empty : empty.capacity = blockSize :=
  Array.size_replicate

/-- Blocks that are added read as the slots past the end did. -/
@[simp] lemma get_cover : (table.cover slot).get other = table.get other := by
  rw [get_eq, get_eq, cover, Array.getElem?_append]
  split
  case isTrue => rfl
  case isFalse h =>
    rw [Array.getElem?_replicate, Array.getElem?_eq_none (Nat.le_of_not_lt h)]
    split <;> rfl

@[simp] lemma capacity_cover :
    (table.cover slot).capacity = max table.capacity ((slot / blockSize + 1) * blockSize) := by
  simp only [capacity, cover, Array.size_append, Array.size_replicate]
  omega

lemma lt_capacity_cover : slot < (table.cover slot).capacity := by
  have hdivide := Nat.div_add_mod slot blockSize
  have hrest := Nat.mod_lt slot (show 0 < blockSize by decide)
  rw [capacity_cover, Nat.add_mul, Nat.mul_comm]
  omega

@[simp] lemma capacity_set :
    (table.set slot status).capacity =
      max table.capacity ((slot / blockSize + 1) * blockSize) := by
  rw [← capacity_cover]
  exact Array.size_modify

@[simp] lemma get_set :
    (table.set slot status).get other =
      if other = slot then table.get slot ||| status else table.get other := by
  have hread := table.get_cover slot other
  rw [get_eq, set, Array.getElem?_modify]
  split
  case isTrue h =>
    subst h
    have hslot : slot < (table.cover slot).slots.size := table.lt_capacity_cover slot
    rw [get_eq, Array.getElem?_eq_getElem hslot, Option.getD_some] at hread
    simp [hslot, hread]
  case isFalse h =>
    rw [if_neg (Ne.symm h), ← hread, get_eq]

@[simp] lemma capacity_clear : (table.clear slot).capacity = table.capacity :=
  Array.size_modify

@[simp] lemma get_clear :
    (table.clear slot).get other = if other = slot then 0 else table.get other := by
  rw [get_eq, clear, Array.getElem?_modify, get_eq]
  split
  case isTrue h =>
    subst h
    cases table.slots[slot]? <;> simp
  case isFalse h => rw [if_neg (Ne.symm h)]

@[simp] lemma capacity_meet : (left.meet right).capacity = min left.capacity right.capacity :=
  Array.size_zipWith

/-- Where a table ends, the other one adds nothing. -/
@[simp] lemma get_meet : (left.meet right).get slot = left.get slot &&& right.get slot := by
  rw [get_eq, get_eq, get_eq, meet, Array.getElem?_zipWith]
  cases left.slots[slot]? <;> cases right.slots[slot]? <;> simp

end UsageTable

/-- What is done with the tables of control-flow paths, whatever stands for a table. -/
structure TableOps (τ : Type) where
  create : Option τ → τ
  fresh : τ
  set : τ → Nat → Status → τ
  clear : τ → Nat → τ
  merge : Option τ → Option τ → τ

/-- A step on tables that are kept under names. A table that it is made from may be missing. -/
inductive TableStep (ν : Type)
  | create (target : ν) (previous : Option ν)
  | fresh (target : ν)
  | set (target : ν) (slot : Nat) (status : Status)
  | clear (target : ν) (slot : Nat)
  | merge (target : ν) (left right : Option ν)

namespace TableStep
variable {ν τ : Type}

/-- The name of the table that a step makes or changes. -/
def target : TableStep ν → ν
  | .create target _ | .fresh target | .set target .. | .clear target _ | .merge target .. => target

/-- The table that a step leaves under its name. Only a table that is there can be changed. -/
def result (ops : TableOps τ) (tables : ν → Option τ) : TableStep ν → Option τ
  | .create _ previous => some (ops.create (previous.bind tables))
  | .fresh _ => some ops.fresh
  | .set target slot status => (tables target).map (ops.set · slot status)
  | .clear target slot => (tables target).map (ops.clear · slot)
  | .merge _ left right => some (ops.merge (left.bind tables) (right.bind tables))

def apply [DecidableEq ν] (ops : TableOps τ) (tables : ν → Option τ) (step : TableStep ν) :
    ν → Option τ :=
  Function.update tables step.target (step.result ops tables)

end TableStep

/-- The tables of the program. -/
def UsageTable.ops : TableOps UsageTable where
  create := create
  fresh := default
  set := set
  clear := clear
  merge := merge

/-- Total maps from slots to statuses. -/
def statusMaps : TableOps (Nat → Status) where
  create previous := previous.getD fun _ => 0
  fresh := fun _ => 0
  set map slot status := Function.update map slot (map slot ||| status)
  clear map slot := Function.update map slot 0
  merge
    | some left, some right => fun slot => left slot &&& right slot
    | some map, none | none, some map => map
    | none, none => fun _ => 0

/-- How many slots are covered. -/
def capacities : TableOps Nat where
  create previous := previous.getD UsageTable.blockSize
  fresh := UsageTable.blockSize
  set capacity slot _ := max capacity ((slot / UsageTable.blockSize + 1) * UsageTable.blockSize)
  clear capacity _ := capacity
  merge
    | some left, some right => min left right
    | some capacity, none | none, some capacity => capacity
    | none, none => UsageTable.blockSize

namespace TableOps
variable {ν τ σ : Type}

/-- The tables after some steps. There is none at first. -/
def run [DecidableEq ν] (ops : TableOps τ) (steps : List (TableStep ν)) : ν → Option τ :=
  steps.foldl (TableStep.apply ops) fun _ => none

/-- A view of tables goes along with everything that is done with them. -/
structure Refines (ops : TableOps τ) (view : τ → σ) (ops' : TableOps σ) : Prop where
  create : ∀ previous, view (ops.create previous) = ops'.create (previous.map view)
  fresh : view ops.fresh = ops'.fresh
  set : ∀ table slot status, view (ops.set table slot status) = ops'.set (view table) slot status
  clear : ∀ table slot, view (ops.clear table slot) = ops'.clear (view table) slot
  merge : ∀ left right,
    view (ops.merge left right) = ops'.merge (left.map view) (right.map view)

/-- What holds of all tables that a table is made from holds of the table. -/
structure Keeps (ops : TableOps τ) (p : τ → Prop) : Prop where
  create : ∀ previous : Option τ, (∀ table ∈ previous, p table) → p (ops.create previous)
  fresh : p ops.fresh
  set : ∀ table slot status, p table → p (ops.set table slot status)
  clear : ∀ table slot, p table → p (ops.clear table slot)
  merge : ∀ left right : Option τ, (∀ table ∈ left, p table) → (∀ table ∈ right, p table) →
    p (ops.merge left right)

variable {ops : TableOps τ} {ops' : TableOps σ} {view : τ → σ} {p : τ → Prop}

/-- One step goes along with a view. -/
lemma Refines.result (h : ops.Refines view ops') (tables : ν → Option τ) (step : TableStep ν) :
    (step.result ops tables).map view =
      step.result ops' fun name => (tables name).map view := by
  have hbind (name : Option ν) :
      (name.bind tables).map view = name.bind fun name => (tables name).map view :=
    Option.map_bind
  cases step with
  | create target previous => simp only [TableStep.result, Option.map_some, h.create, hbind]
  | fresh target => simp only [TableStep.result, Option.map_some, h.fresh]
  | set target slot status =>
    cases htable : tables target <;> simp [TableStep.result, htable, h.set]
  | clear target slot => cases htable : tables target <;> simp [TableStep.result, htable, h.clear]
  | merge target left right => simp only [TableStep.result, Option.map_some, h.merge, hbind]

/-- One step keeps what holds of all tables. -/
lemma Keeps.result (h : ops.Keeps p) {tables : ν → Option τ}
    (htables : ∀ name, ∀ table ∈ tables name, p table) (step : TableStep ν) :
    ∀ table ∈ step.result ops tables, p table := by
  have hbind (name : Option ν) : ∀ table ∈ name.bind tables, p table := by
    intro table htable
    obtain ⟨name, -, htable⟩ := Option.bind_eq_some_iff.mp htable
    exact htables name table htable
  intro table htable
  cases step with
  | create target previous =>
    cases htable
    exact h.create _ (hbind previous)
  | fresh target =>
    cases htable
    exact h.fresh
  | set target slot status =>
    obtain ⟨before, hbefore, rfl⟩ := Option.map_eq_some_iff.mp htable
    exact h.set before slot status (htables target before hbefore)
  | clear target slot =>
    obtain ⟨before, hbefore, rfl⟩ := Option.map_eq_some_iff.mp htable
    exact h.clear before slot (htables target before hbefore)
  | merge target left right =>
    cases htable
    exact h.merge _ _ (hbind left) (hbind right)

variable [DecidableEq ν]

lemma run_append (ops : TableOps τ) (steps : List (TableStep ν)) (step : TableStep ν) :
    ops.run (steps ++ [step]) = step.apply ops (ops.run steps) := by
  simp [run]

/-- A step leaves every table alone but its own. -/
lemma run_append_of_ne (ops : TableOps τ) (steps : List (TableStep ν)) {step : TableStep ν}
    {name : ν} (h : name ≠ step.target) : ops.run (steps ++ [step]) name = ops.run steps name := by
  rw [run_append]
  exact Function.update_of_ne h ..

lemma run_append_target (ops : TableOps τ) (steps : List (TableStep ν)) (step : TableStep ν) :
    ops.run (steps ++ [step]) step.target = step.result ops (ops.run steps) := by
  rw [run_append]
  exact Function.update_self ..

/-- Whatever is done with tables can be done with their views. -/
theorem Refines.run (h : ops.Refines view ops') (steps : List (TableStep ν)) (name : ν) :
    (ops.run steps name).map view = ops'.run steps name := by
  induction steps using List.reverseRecOn generalizing name with
  | nil => rfl
  | append_singleton steps step ih =>
    by_cases hname : name = step.target
    · subst hname
      rw [run_append_target, run_append_target, h.result, funext ih]
    · rw [run_append_of_ne _ _ hname, run_append_of_ne _ _ hname, ih]

theorem Keeps.run (h : ops.Keeps p) (steps : List (TableStep ν)) (name : ν) :
    ∀ table ∈ ops.run steps name, p table := by
  induction steps using List.reverseRecOn generalizing name with
  | nil => nofun
  | append_singleton steps step ih =>
    by_cases hname : name = step.target
    · subst hname
      rw [run_append_target]
      exact h.result ih step
    · rw [run_append_of_ne _ _ hname]
      exact ih name

end TableOps

namespace UsageTable

lemma refines_statusMaps : ops.Refines get statusMaps where
  create previous := by
    cases previous with
    | none => exact funext get_empty
    | some table => rfl
  fresh := funext get_empty
  set table slot status := by
    funext other
    simp [ops, statusMaps, Function.update_apply]
  clear table slot := by
    funext other
    simp [ops, statusMaps, Function.update_apply]
  merge left right := by
    funext slot
    cases left <;> cases right <;> simp [ops, statusMaps, merge]

lemma refines_capacities : ops.Refines capacity capacities where
  create previous := by
    cases previous with
    | none => exact capacity_empty
    | some table => rfl
  fresh := capacity_empty
  set table slot status := table.capacity_set slot status
  clear table slot := table.capacity_clear slot
  merge left right := by
    cases left <;> cases right <;> simp [ops, capacities, merge]

/-- A number of slots that whole blocks have, at least one of them. -/
def WholeBlocks (capacity : Nat) : Prop :=
  0 < capacity ∧ blockSize ∣ capacity

lemma keeps_wholeBlocks : capacities.Keeps WholeBlocks where
  create previous h := by
    cases previous with
    | none => exact ⟨by decide, Nat.dvd_refl _⟩
    | some capacity => exact h capacity rfl
  fresh := ⟨by decide, Nat.dvd_refl _⟩
  set capacity slot status h :=
    max_rec' WholeBlocks h ⟨Nat.mul_pos (Nat.succ_pos _) (by decide), Nat.dvd_mul_left ..⟩
  clear capacity slot h := h
  merge left right hleft hright := by
    cases left with
    | none =>
      cases right with
      | none => exact ⟨by decide, Nat.dvd_refl _⟩
      | some right => exact hright right rfl
    | some left =>
      cases right with
      | none => exact hleft left rfl
      | some right => exact min_rec' WholeBlocks (hleft left rfl) (hright right rfl)

/-- A table grows by as few blocks as cover the slot, and by none if it covers it already. -/
lemma isLeast_set {capacity : Nat} (h : blockSize ∣ capacity) (slot : Nat) (status : Status) :
    IsLeast {n | blockSize ∣ n ∧ capacity ≤ n ∧ slot < n}
      (capacities.set capacity slot status) := by
  have hslot : slot < (slot / blockSize + 1) * blockSize :=
    Nat.lt_mul_of_div_lt (Nat.lt_succ_self _) (by decide)
  constructor
  · exact ⟨max_rec' (blockSize ∣ ·) h (Nat.dvd_mul_left ..), le_max_left ..,
      lt_max_of_lt_right hslot⟩
  · rintro n ⟨⟨blocks, rfl⟩, hcapacity, hlt⟩
    refine max_le hcapacity ?_
    rw [Nat.mul_comm]
    exact Nat.mul_le_mul_left _ (Nat.div_lt_of_lt_mul hlt)

end UsageTable

/-- Whatever steps are taken on named tables, each table reads as the map that the same steps give,
and covers as many slots as they say: whole blocks of 32, as few more as a status needs when it is
set, and what both sides cover when two tables are merged. Past its end a table reads as zero, and a
step leaves every table alone but its own. -/
theorem tables_refine_maps {ν : Type} [DecidableEq ν] (steps : List (TableStep ν)) :
    (∀ name, (UsageTable.ops.run steps name).map UsageTable.get = statusMaps.run steps name) ∧
    (∀ name, (UsageTable.ops.run steps name).map UsageTable.capacity = capacities.run steps name) ∧
    (∀ name, ∀ table ∈ UsageTable.ops.run steps name,
      0 < table.capacity ∧ 32 ∣ table.capacity ∧
      (∀ slot, table.capacity ≤ slot → table.get slot = 0) ∧
      (∀ slot, (table.clear slot).capacity = table.capacity) ∧
      ∀ slot status, IsLeast {n | 32 ∣ n ∧ table.capacity ≤ n ∧ slot < n}
        (table.set slot status).capacity) ∧
    ∀ step, ∀ name ≠ step.target,
      UsageTable.ops.run (steps ++ [step]) name = UsageTable.ops.run steps name := by
  have hcapacity := UsageTable.refines_capacities.run steps
  refine ⟨UsageTable.refines_statusMaps.run steps, hcapacity, ?_, ?_⟩
  · intro name table htable
    have hrun : capacities.run steps name = some table.capacity := by
      rw [← hcapacity, Option.mem_def.mp htable, Option.map_some]
    obtain ⟨hpositive, hblocks⟩ := UsageTable.keeps_wholeBlocks.run steps name _ hrun
    refine ⟨hpositive, hblocks, fun slot => UsageTable.get_of_capacity_le, table.capacity_clear, ?_⟩
    intro slot status
    rw [UsageTable.capacity_set]
    exact UsageTable.isLeast_set hblocks slot status
  · intro step name hname
    exact TableOps.run_append_of_ne _ _ hname

end CilAssembly
