import CilAssembly.Proofs.Dataflow.Tables
import Mathlib.Order.Bounds.Basic
import Mathlib.Order.Lattice

/-!
Joins of any number of paths. A table is below another one if it covers no more slots and knows no
more about any of them; merging two tables gives the greatest table below both. So many tables come
to the same one whichever way they are merged.
-/
namespace CilAssembly

/-- Every bit of one status is a bit of the other. -/
def Status.Within (a b : Status) : Prop :=
  ∀ bit, a.toNat.testBit bit → b.toNat.testBit bit

namespace Status
variable {a b c : Status}

lemma within_refl (a : Status) : a.Within a :=
  fun _ => id

lemma Within.trans (h : a.Within b) (h' : b.Within c) : a.Within c :=
  fun bit hbit => h' bit (h bit hbit)

lemma Within.antisymm (h : a.Within b) (h' : b.Within a) : a = b := by
  refine UInt8.toNat_inj.mp (Nat.eq_of_testBit_eq fun bit => ?_)
  exact Bool.eq_iff_iff.mpr ⟨h bit, h' bit⟩

/-- A status is within what two others share exactly if it is within both. -/
lemma within_and_iff : c.Within (a &&& b) ↔ c.Within a ∧ c.Within b := by
  simp only [Within, UInt8.toNat_and, Nat.testBit_and, Bool.and_eq_true, ← forall_and]

@[simp] lemma and_full (a : Status) : a &&& 0xff = a :=
  UInt8.and_neg_one

@[simp] lemma full_and (a : Status) : 0xff &&& a = a :=
  UInt8.neg_one_and

end Status

namespace UsageTable
variable {left right : UsageTable}

/-- Tables that cover the same slots and know the same about them are equal. -/
@[ext] lemma ext (hcapacity : left.capacity = right.capacity)
    (hget : ∀ slot, left.get slot = right.get slot) : left = right := by
  obtain ⟨slots⟩ := left
  obtain ⟨slots'⟩ := right
  refine congrArg mk (Array.ext hcapacity ?_)
  intro slot hslot hslot'
  simpa [get, hslot, hslot'] using hget slot

instance : PartialOrder UsageTable where
  le left right :=
    left.capacity ≤ right.capacity ∧ ∀ slot, (left.get slot).Within (right.get slot)
  le_refl table := ⟨le_rfl, fun slot => Status.within_refl _⟩
  le_trans _ _ _ h h' := ⟨h.1.trans h'.1, fun slot => (h.2 slot).trans (h'.2 slot)⟩
  le_antisymm _ _ h h' := ext (h.1.antisymm h'.1) fun slot => (h.2 slot).antisymm (h'.2 slot)

lemma le_iff : left ≤ right ↔
    left.capacity ≤ right.capacity ∧ ∀ slot, (left.get slot).Within (right.get slot) :=
  Iff.rfl

lemma le_meet_iff {table : UsageTable} :
    table ≤ left.meet right ↔ table ≤ left ∧ table ≤ right := by
  simp only [le_iff, capacity_meet, le_min_iff, get_meet, Status.within_and_iff, forall_and]
  tauto

instance : SemilatticeInf UsageTable where
  inf := meet
  inf_le_left left right := (le_meet_iff.mp (le_refl (left.meet right))).1
  inf_le_right left right := (le_meet_iff.mp (le_refl (left.meet right))).2
  le_inf _ _ _ h h' := le_meet_iff.mpr ⟨h, h'⟩

lemma merge_eq_inf (left right : UsageTable) : merge (some left) (some right) = left ⊓ right := rfl

end UsageTable

/-- A way to merge the tables of some paths, two at a time. -/
inductive Joining
  | path (table : UsageTable)
  | join (left right : Joining)

namespace Joining

/-- The tables that are merged, from left to right. -/
def tables : Joining → List UsageTable
  | .path table => [table]
  | .join left right => left.tables ++ right.tables

/-- The table that merging comes to. -/
def result : Joining → UsageTable
  | .path table => table
  | .join left right => UsageTable.merge (some left.result) (some right.result)

variable (j : Joining)

lemma tables_join (left right : Joining) :
    {table | table ∈ (join left right).tables} =
      {table | table ∈ left.tables} ∪ {table | table ∈ right.tables} := by
  ext table
  exact List.mem_append

/-- The result is the greatest table below all that are merged. -/
theorem isGLB_result : IsGLB {table | table ∈ j.tables} j.result := by
  induction j with
  | path table => simp [tables, result]
  | join left right ihLeft ihRight =>
    rw [tables_join, result, UsageTable.merge_eq_inf]
    exact ihLeft.union ihRight

/-- The result covers what the table with the fewest slots covers. -/
lemma isLeast_capacity :
    IsLeast (UsageTable.capacity '' {table | table ∈ j.tables}) j.result.capacity := by
  induction j with
  | path table => simp [tables, result]
  | join left right ihLeft ihRight =>
    rw [tables_join, Set.image_union, result, UsageTable.merge, UsageTable.capacity_meet]
    exact ihLeft.union ihRight

/-- The result knows about a slot what all tables share. -/
lemma get_result (slot : Nat) :
    j.result.get slot = (j.tables.map (·.get slot)).foldr (· &&& ·) 0xff := by
  induction j with
  | path table => simp [tables, result]
  | join left right ihLeft ihRight =>
    have hassoc (statuses : List Status) (rest : Status) :
        statuses.foldr (· &&& ·) (0xff &&& rest) = statuses.foldr (· &&& ·) 0xff &&& rest :=
      List.foldr_assoc
    rw [result, UsageTable.merge, UsageTable.get_meet, ihLeft, ← hassoc, Status.full_and, ihRight,
      tables, List.map_append, List.foldr_append]

/-- Neither order nor grouping matters. -/
lemma result_eq_of_perm {j j' : Joining} (h : j.tables.Perm j'.tables) : j.result = j'.result := by
  have hsame : {table | table ∈ j.tables} = {table | table ∈ j'.tables} := by
    ext table
    exact h.mem_iff
  exact j.isGLB_result.unique (hsame ▸ j'.isGLB_result)

end Joining

/-- Joins are independent of order and grouping. However some tables are merged, two at a time, the
result covers as many slots as the shortest of them and has at each slot the bits that all of them
have there; so two ways to merge the same tables come to the same one. Merging is commutative,
associative and idempotent, and gives the greatest table that covers no more than either side and at
every slot knows no more. -/
theorem joins_agree :
    (∀ j : Joining,
      IsLeast (UsageTable.capacity '' {table | table ∈ j.tables}) j.result.capacity ∧
      ∀ slot, j.result.get slot = (j.tables.map (·.get slot)).foldr (· &&& ·) 0xff) ∧
    (∀ j j' : Joining, j.tables.Perm j'.tables → j.result = j'.result) ∧
    (∀ a b : UsageTable,
      UsageTable.merge (some a) (some b) = UsageTable.merge (some b) (some a)) ∧
    (∀ a b c : UsageTable,
      UsageTable.merge (some (UsageTable.merge (some a) (some b))) (some c) =
        UsageTable.merge (some a) (some (UsageTable.merge (some b) (some c)))) ∧
    (∀ a : UsageTable, UsageTable.merge (some a) (some a) = a) ∧
    ∀ a b : UsageTable, IsGLB {a, b} (UsageTable.merge (some a) (some b)) :=
  ⟨fun j => ⟨j.isLeast_capacity, j.get_result⟩, fun _ _ => Joining.result_eq_of_perm,
    inf_comm, inf_assoc, inf_idem, fun _ _ => isGLB_pair⟩

/-- The table of a path that declares and uses a variable. -/
def usedTable (slot : Nat) : UsageTable :=
  UsageTable.empty.set slot (.declared ||| .used)

/-- Three paths of different length, joined in two ways. -/
theorem joins_agree_reversed :
    [usedTable 7, usedTable 40, usedTable 100].Perm
      [usedTable 100, usedTable 40, usedTable 7] ∧
    (Joining.join (.join (.path (usedTable 7)) (.path (usedTable 40)))
        (.path (usedTable 100))).result =
      (Joining.join (.path (usedTable 100))
        (.join (.path (usedTable 40)) (.path (usedTable 7)))).result :=
  ⟨(List.reverse_perm _).symm, joins_agree.2.1 _ _ (List.reverse_perm _).symm⟩

end CilAssembly
