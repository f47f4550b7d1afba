import CilAssembly.Proofs.Generation.Effects

/-!
Access to array elements and through pointers. Loads and stores of both kinds go by the machine type
of a value, each by a table of its own. They accept the same types, access the same storage, and
refuse the rest before anything is emitted.
-/
namespace CilAssembly

/-- The storage of a value that is not a structure: an integer of one, two, four or eight bytes or
of native width, a floating-point number of four or eight bytes, or a reference. -/
inductive Cell
  | i1 | i2 | i4 | i8 | native | r4 | r8 | ref
  deriving DecidableEq, Repr

/-- The cell that an opcode loads or stores, in an array or through a pointer. -/
def Opcode.cell? : Opcode → Option Cell
  | .ldelemI1 | .ldelemU1 | .stelemI1 | .ldindI1 | .ldindU1 | .stindI1 => some .i1
  | .ldelemI2 | .ldelemU2 | .stelemI2 | .ldindI2 | .ldindU2 | .stindI2 => some .i2
  | .ldelemI4 | .ldelemU4 | .stelemI4 | .ldindI4 | .ldindU4 | .stindI4 => some .i4
  | .ldelemI8 | .stelemI8 | .ldindI8 | .stindI8 => some .i8
  | .ldelemI | .stelemI | .ldindI | .stindI => some .native
  | .ldelemR4 | .stelemR4 | .ldindR4 | .stindR4 => some .r4
  | .ldelemR8 | .stelemR8 | .ldindR8 | .stindR8 => some .r8
  | .ldelemRef | .stelemRef | .ldindRef | .stindRef => some .ref
  | _ => none

/-- The opcodes of one machine type in the four tables, all for the same cell. -/
structure MachineType.Opcodes (m : MachineType) where
  cell : Cell
  loadElement : Opcode
  storeElement : Opcode
  loadIndirect : Opcode
  storeIndirect : Opcode
  arrayLoad : m.arrayLoad? = some loadElement
  arrayStore : m.arrayStore? = some storeElement
  indirectLoad : m.indirectLoad? = some loadIndirect
  indirectStore : m.indirectStore? = some storeIndirect
  same : ∀ opcode ∈ [loadElement, storeElement, loadIndirect, storeIndirect],
    opcode.cell? = some cell

/-- The tables cover the same machine types and agree on the cell. -/
lemma MachineType.exists_opcodes {m : MachineType} (hvoid : m ≠ .void)
    (hstructure : m.isStructure = false) : Nonempty m.Opcodes := by
  cases m
  case void => exact absurd rfl hvoid
  case decimal | managedValue => cases hstructure
  case boolean | int8 | uint8 => exact ⟨.i1, _, _, _, _, rfl, rfl, rfl, rfl, by decide⟩
  case int16 | uint16 | char => exact ⟨.i2, _, _, _, _, rfl, rfl, rfl, rfl, by decide⟩
  case int32 | uint32 => exact ⟨.i4, _, _, _, _, rfl, rfl, rfl, rfl, by decide⟩
  case int64 | uint64 => exact ⟨.i8, _, _, _, _, rfl, rfl, rfl, rfl, by decide⟩
  case nativeInt | nativeUInt | unmanagedPtr | managedPtr | transientPtr =>
    exact ⟨.native, _, _, _, _, rfl, rfl, rfl, rfl, by decide⟩
  case float32 => exact ⟨.r4, _, _, _, _, rfl, rfl, rfl, rfl, by decide⟩
  case float64 | nativeFloat => exact ⟨.r8, _, _, _, _, rfl, rfl, rfl, rfl, by decide⟩
  case string | objectRef => exact ⟨.ref, _, _, _, _, rfl, rfl, rfl, rfl, by decide⟩

namespace CilType

/-- The type behind an enumeration, and behind that if it is an enumeration again. -/
def representation : CilType → CilType
  | .enum _ underlying => underlying.representation
  | t => t

lemma representation_ne_enum (t : CilType) (name : ClassName) (underlying : CilType) :
    t.representation ≠ .enum name underlying := by
  induction t with
  | enum _ _ ih => exact ih
  | _ => simp [representation]

lemma machineType_representation (t : CilType) :
    t.representation.machineType = t.machineType := by
  induction t with
  | enum _ _ ih => exact ih
  | _ => rfl

/-- Values of the type have no storage. -/
def IsNowhere (t : CilType) : Prop :=
  t.representation = .void ∨ t.representation = .invalid

/-- Values of the type are structures. -/
def IsInline (t : CilType) : Prop :=
  t.representation = .typedRef ∨ ∃ name, t.representation = .valueType name

lemma machineType_eq_void_iff (t : CilType) : t.machineType = .void ↔ t.IsNowhere := by
  rw [← machineType_representation, IsNowhere]
  cases h : t.representation with
  | enum name underlying => exact absurd h (t.representation_ne_enum name underlying)
  | classType name | valueType name => simp only [machineType]; split <;> simp
  | _ => simp [machineType]

lemma isStructure_machineType_iff (t : CilType) :
    t.machineType.isStructure = true ↔ t.IsInline := by
  rw [← machineType_representation, IsInline]
  cases h : t.representation with
  | enum name underlying => exact absurd h (t.representation_ne_enum name underlying)
  | classType name | valueType name =>
    simp only [machineType]
    split <;> simp [MachineType.isStructure]
  | _ => simp [machineType, MachineType.isStructure]

end CilType

namespace Gen
variable {t : CilType}

/-- Without storage, every access is refused and the context stays as it is. -/
lemma refuses_access (h : t.machineType = .void) (c : Context) :
    loadElement t c = .error (.violation (.cannotLoadElements t)) c ∧
    prepareStore t c = .error (.violation (.cannotStoreElements t)) c ∧
    loadIndirect t c = .error (.violation (.cannotLoadIndirectly t)) c ∧
    storeIndirect t c = .error (.violation (.cannotStoreIndirectly t)) c := by
  unfold loadElement prepareStore loadIndirect storeIndirect
  rw [h]
  exact ⟨rfl, rfl, rfl, rfl⟩

/-- A structure is accessed as a whole: in an array by its address, which is taken before the value
is pushed. -/
lemma accesses_structure (h : t.machineType.isStructure = true) (c d : Context) :
    loadElement t c =
      .ok () (c.emitted [.tokenLine .ldelema t.token, .tokenLine .ldobj t.token]) ∧
    prepareStore t c = .ok ⟨t⟩ (c.emitted [.tokenLine .ldelema t.token]) ∧
    commitStore ⟨t⟩ d = .ok () (d.emitted [.tokenLine .stobj t.token]) ∧
    loadIndirect t c = .ok () (c.emitted [.tokenLine .ldobj t.token]) ∧
    storeIndirect t c = .ok () (c.emitted [.tokenLine .stobj t.token]) := by
  unfold loadElement prepareStore commitStore loadIndirect storeIndirect
  dsimp only
  cases hm : t.machineType <;> rw [hm] at h <;> cases h <;> exact ⟨rfl, rfl, rfl, rfl, rfl⟩

/-- Any other value is accessed by an opcode of its own, which follows the value to be stored. -/
lemma accesses_cell (opcodes : t.machineType.Opcodes) (c d : Context) :
    loadElement t c = .ok () (c.emitted [.plain { opcode := opcodes.loadElement }]) ∧
    prepareStore t c = .ok ⟨t⟩ c ∧
    commitStore ⟨t⟩ d = .ok () (d.emitted [.plain { opcode := opcodes.storeElement }]) ∧
    loadIndirect t c = .ok () (c.emitted [.plain { opcode := opcodes.loadIndirect }]) ∧
    storeIndirect t c = .ok () (c.emitted [.plain { opcode := opcodes.storeIndirect }]) := by
  unfold loadElement prepareStore commitStore loadIndirect storeIndirect
  dsimp only
  rw [opcodes.arrayLoad, opcodes.arrayStore, opcodes.indirectLoad, opcodes.indirectStore]
  exact ⟨rfl, rfl, rfl, rfl, rfl⟩

end Gen

/-- The four ways to access storage agree. A type is followed through enumerations. If it is `void`
or `invalid`, all four refuse it and leave the context alone. If it is a structure, an array store
takes the address first and ends with `stobj`, wherever it is committed, and all tokens are that of
the type. For every other type nothing is emitted at first, and loads and stores use opcodes for the
same cell. -/
theorem access_families_agree (t : CilType) :
    (t.IsNowhere → ∀ c,
      Gen.loadElement t c = .error (.violation (.cannotLoadElements t)) c ∧
      Gen.prepareStore t c = .error (.violation (.cannotStoreElements t)) c ∧
      Gen.loadIndirect t c = .error (.violation (.cannotLoadIndirectly t)) c ∧
      Gen.storeIndirect t c = .error (.violation (.cannotStoreIndirectly t)) c) ∧
    (t.IsInline → ∀ c d,
      Gen.loadElement t c =
        .ok () (c.emitted [.tokenLine .ldelema t.token, .tokenLine .ldobj t.token]) ∧
      Gen.prepareStore t c = .ok ⟨t⟩ (c.emitted [.tokenLine .ldelema t.token]) ∧
      Gen.commitStore ⟨t⟩ d = .ok () (d.emitted [.tokenLine .stobj t.token]) ∧
      Gen.loadIndirect t c = .ok () (c.emitted [.tokenLine .ldobj t.token]) ∧
      Gen.storeIndirect t c = .ok () (c.emitted [.tokenLine .stobj t.token])) ∧
    (¬t.IsNowhere → ¬t.IsInline → ∃ opcodes : t.machineType.Opcodes, ∀ c d,
      Gen.loadElement t c = .ok () (c.emitted [.plain { opcode := opcodes.loadElement }]) ∧
      Gen.prepareStore t c = .ok ⟨t⟩ c ∧
      Gen.commitStore ⟨t⟩ d = .ok () (d.emitted [.plain { opcode := opcodes.storeElement }]) ∧
      Gen.loadIndirect t c = .ok () (c.emitted [.plain { opcode := opcodes.loadIndirect }]) ∧
      Gen.storeIndirect t c =
        .ok () (c.emitted [.plain { opcode := opcodes.storeIndirect }])) := by
  refine ⟨?_, ?_, ?_⟩
  · intro hnowhere
    exact Gen.refuses_access (t.machineType_eq_void_iff.mpr hnowhere)
  · intro hinline
    exact Gen.accesses_structure (t.isStructure_machineType_iff.mpr hinline)
  · intro hsomewhere hcell
    rw [← t.machineType_eq_void_iff] at hsomewhere
    rw [← t.isStructure_machineType_iff, Bool.not_eq_true] at hcell
    obtain ⟨opcodes⟩ := MachineType.exists_opcodes hsomewhere hcell
    exact ⟨opcodes, Gen.accesses_cell opcodes⟩

end CilAssembly
