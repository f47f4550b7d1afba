import CilAssembly.Proofs.Generation.Placement

/-!
Slots of methods. The arguments and the locals of an open method are numbered from zero on, and there
are never more of them than instructions can address. A local or a method that does not fit is
refused, and nothing changes.
-/
namespace CilAssembly

namespace Slot

/-- Slots are numbered from zero on, each is accessed by the machine type of its type, and
instructions can address all of them. -/
structure Numbered (slots : Array Slot) : Prop where
  size_le : slots.size ≤ maxSlots
  index : ∀ i (h : i < slots.size), slots[i].index = i
  machine : ∀ i (h : i < slots.size), slots[i].machine = slots[i].type.machineType

lemma numbered_empty : Numbered #[] :=
  ⟨Nat.zero_le _, by simp, by simp⟩

lemma numbered_ofTypes {types : List CilType} (h : types.length ≤ maxSlots) :
    Numbered (ofTypes types) := by
  have hsize : (ofTypes types).size = types.length := by simp [ofTypes]
  refine ⟨hsize.trans_le h, ?_, fun _ _ => rfl⟩
  intro i hi
  have hslot : (ofTypes types)[i] = Slot.new i types[i] := by simp [ofTypes]
  rw [hslot, new_of_le (by omega)]

lemma Numbered.push {slots : Array Slot} (h : Numbered slots) (hroom : slots.size < maxSlots)
    (type : CilType) : Numbered (slots.push ⟨slots.size, type⟩) := by
  refine ⟨by rwa [Array.size_push], ?_, fun _ _ => rfl⟩
  intro i hi
  rw [Array.getElem_push]
  split
  case isTrue hold => exact h.index i hold
  case isFalse hnew =>
    rw [Array.size_push] at hi
    change slots.size = i
    omega

end Slot

namespace Gen
variable {c : Context} {method : MethodId}

/-- A method is refused exactly where it takes more arguments than can be addressed. -/
lemma beginMethod_refused_iff (hframe : c.frame = none) {name : String} {d : Context} :
    beginMethod method c = .error (.failure (.tooManyArguments name)) d ↔
      d = c ∧ ∃ info types, c.image.Takes method info types ∧ info.name = name ∧
        maxSlots < types.length := by
  constructor
  · intro h
    by_cases htakes : ∃ info types, c.image.Takes method info types
    · obtain ⟨info, types, htakes⟩ := htakes
      rw [beginMethod_eq hframe htakes] at h
      split at h
      case isTrue hmany =>
        cases h
        exact ⟨rfl, info, types, htakes, rfl, hmany⟩
      case isFalse => cases h
    · obtain ⟨v, hviolates⟩ := beginMethod_violates hframe htakes
      rw [hviolates] at h
      cases h
  · rintro ⟨rfl, info, types, htakes, rfl, hmany⟩
    rw [beginMethod_eq hframe htakes, if_pos hmany]

/-- A method opens exactly where its arguments are known and can be addressed. -/
lemma beginMethod_opens_iff (hframe : c.frame = none) {d : Context} :
    beginMethod method c = .ok () d ↔
      ∃ info types, c.image.Takes method info types ∧ types.length ≤ maxSlots ∧
        d = c.opened method types := by
  constructor
  · intro h
    exact ((beginMethod_opens c method).returned h).2
  · rintro ⟨info, types, htakes, hroom, rfl⟩
    rw [beginMethod_eq hframe htakes, if_neg (Nat.not_lt.mpr hroom)]

end Gen

/-- What an operation may do to the open method: nothing, open one, add a local or end it. -/
inductive FrameChange (before : Option Frame) : Option Frame → Prop
  | keep : FrameChange before before
  | enter (method : MethodId) {types : List CilType} (room : types.length ≤ maxSlots) (start : Nat) :
      FrameChange before (some { method, args := Slot.ofTypes types, start })
  | grow {frame : Frame} (opened : before = some frame) (room : frame.locals.size < maxSlots)
      (type : CilType) :
      FrameChange before
        (some { frame with locals := frame.locals.push ⟨frame.locals.size, type⟩ })
  | leave : FrameChange before none

/-- Every other operation leaves the open method alone or ends it. -/
lemma Effect.frame {c d : Context} {op : Operation} {label : Option Label} {events : List Event}
    (h : Effect c op label events d) :
    (∃ method, op = .beginMethod method) ∨ (∃ type name, op = .allocLocal type name) ∨
      FrameChange c.frame d.frame := by
  cases h with
  | beginMethod => exact .inl ⟨_, rfl⟩
  | allocLocal => exact .inr (.inl ⟨_, _, rfl⟩)
  | emit e =>
    rw [Context.frame_emitted]
    exact .inr (.inr .keep)
  | keep keeps =>
    rw [keeps.frame]
    exact .inr (.inr .keep)
  | endMethod =>
    rw [Context.frame_emitted]
    exact .inr (.inr .leave)
  | _ => exact .inr (.inr .keep)

namespace Step
variable {c d : Context} {op : Operation} {label : Option Label} {events : List Event}

/-- An operation satisfies its condition, or is refused and changes nothing. -/
lemma meets (h : Step c op label events d) {post : Option Label → Context → Prop}
    (hmeets : op.perform.Meets c post) : post label d ∨ d = c := by
  cases h with
  | done performed => exact .inl (hmeets.returned performed)
  | refused performed => exact .inr (hmeets.failed performed)

lemma frame (h : Step c op label events d) : FrameChange c.frame d.frame := by
  have hframe (hmeets : op.perform.Meets c fun _ d => FrameChange c.frame d.frame) :
      FrameChange c.frame d.frame := by
    obtain hchange | rfl := h.meets hmeets
    · exact hchange
    · exact .keep
  obtain ⟨method, rfl⟩ | ⟨type, name, rfl⟩ | hchange := h.effect.frame
  · refine hframe (.then_none ((Gen.beginMethod_opens c method).mono ?_))
    rintro _ _ ⟨-, info, types, -, hroom, rfl⟩
    exact .enter method hroom _
  · refine hframe (.then_none ((Gen.allocLocal_declares c type name).mono ?_))
    rintro _ _ ⟨frame, hopened, hroom, rfl⟩
    exact .grow hopened hroom type
  · exact hchange

end Step

/-- The arguments and the locals of a method are numbered. -/
def Frame.Numbered (frame : Frame) : Prop :=
  Slot.Numbered frame.args ∧ Slot.Numbered frame.locals

lemma FrameChange.numbered {before after : Option Frame} (h : FrameChange before after)
    (hbefore : ∀ frame ∈ before, frame.Numbered) : ∀ frame ∈ after, frame.Numbered := by
  cases h with
  | keep => exact hbefore
  | enter method room start =>
    rintro _ ⟨⟩
    exact ⟨Slot.numbered_ofTypes room, Slot.numbered_empty⟩
  | grow opened room type =>
    obtain ⟨hargs, hlocals⟩ := hbefore _ opened
    rintro _ ⟨⟩
    exact ⟨hargs, hlocals.push room type⟩
  | leave => rintro _ ⟨⟩

namespace Run
variable {rule : History → Operation → Prop} {options : Options} {history : History} {b c : Context}

lemma numbered (run : Run rule (.create options) history c) : ∀ frame ∈ c.frame, frame.Numbered := by
  induction run with
  | start => rintro _ ⟨⟩
  | step _ _ step ih => exact step.frame.numbered ih

/-- A method can be filled with locals up to any number that can be addressed. -/
lemma exists_locals (run : Run AnyOperation b history c) {frame : Frame}
    (hframe : c.frame = some frame) {count : Nat} (h : frame.locals.size ≤ count)
    (hcount : count ≤ maxSlots) :
    ∃ history d frame', Run AnyOperation b history d ∧ d.frame = some frame' ∧
      frame'.locals.size = count := by
  induction count, h using Nat.le_induction with
  | base => exact ⟨_, _, _, run, hframe, rfl⟩
  | succ count _ ih =>
    obtain ⟨history, d, frame', run, hframe', rfl⟩ := ih (Nat.le_of_succ_le hcount)
    have halloc := Gen.allocLocal_room hframe' .int32 none hcount
    have hperform : (Operation.allocLocal .int32 none).perform d =
        .ok none (d.withLocal frame' .int32 none) := by
      simp only [Operation.perform, Gen.bind_apply, halloc, Gen.pure_apply]
    exact ⟨_, _, _, run.step trivial (.done hperform), rfl, Array.size_push _⟩

end Run

/-- How slots are handed out in a unit. -/
structure HandsOutSlots (c : Context) : Prop where
  /-- The arguments and the locals of the open method are numbered. -/
  numbered : ∀ frame ∈ c.frame, frame.Numbered
  /-- A new local gets the number of the locals before it and is declared on one line. It is refused
  exactly where the method has all the locals that can be addressed. -/
  allocLocal : ∀ frame ∈ c.frame, ∀ type name,
    if frame.locals.size = maxSlots then
      ∃ info, c.image.getMethod frame.method = .ok info ∧
        Gen.allocLocal type name c = .error (.failure (.tooManyLocals info.name)) c
    else Gen.allocLocal type name c = .ok ⟨frame.locals.size, type⟩ (c.withLocal frame type name)
  /-- A method is refused exactly where it takes more arguments than can be addressed. -/
  beginMethod : c.frame = none → ∀ method,
    (∀ name d, Gen.beginMethod method c = .error (.failure (.tooManyArguments name)) d ↔
      d = c ∧ ∃ info types, c.image.Takes method info types ∧ info.name = name ∧
        maxSlots < types.length) ∧
    ∀ d, Gen.beginMethod method c = .ok () d ↔
      ∃ info types, c.image.Takes method info types ∧ types.length ≤ maxSlots ∧
        d = c.opened method types
  /-- What is refused changes nothing. -/
  refused : ∀ f d,
    (∃ type name, Gen.allocLocal type name c = .error (.failure f) d) ∨
      (∃ method, Gen.beginMethod method c = .error (.failure f) d) ∨
      (∃ leave, Gen.newLabelOf leave c = .error (.failure f) d) → d = c

/-- **Slots are handed out in order.** -/
theorem slots_handed_out {options : Options} {history : History} {c : Context}
    (run : Run AnyOperation (.create options) history c) : HandsOutSlots c := by
  refine ⟨run.numbered, ?_, fun hframe method =>
    ⟨fun _ _ => Gen.beginMethod_refused_iff hframe, fun _ => Gen.beginMethod_opens_iff hframe⟩, ?_⟩
  · intro frame hframe type name
    obtain ⟨info, hinfo⟩ := run.method_found hframe
    have hsize := (run.numbered frame hframe).2.size_le
    split
    case isTrue hfull => exact ⟨info, hinfo, Gen.allocLocal_full hframe type name hfull.ge hinfo⟩
    case isFalse hroom => exact Gen.allocLocal_room hframe type name (lt_of_le_of_ne hsize hroom)
  · rintro f d (⟨type, name, h⟩ | ⟨method, h⟩ | ⟨leave, h⟩)
    · exact (Gen.allocLocal_declares c type name).failed h
    · exact (Gen.beginMethod_opens c method).failed h
    · by_cases hroom : c.labels.created < Labels.limit
      · rw [Gen.newLabelOf_apply hroom] at h
        cases h
      · rw [Gen.newLabelOf_exhausted hroom] at h
        cases h
        rfl

/-- Opens a method in a new unit. -/
def openMain : List Operation :=
  [.keep (.addClass none "Program"),
    .keep (.addMethod ⟨0⟩ "Main" { result := .void, params := [.string] }), .beginMethod ⟨0⟩]

/-- A method with all the locals that can be addressed. -/
theorem slots_handed_out_full :
    ∃ history c frame, Run AnyOperation (.create {}) history c ∧ c.frame = some frame ∧
      frame.locals.size = maxSlots ∧ HandsOutSlots c := by
  have hreplay : replay AnyOperation {} (.create {}) openMain = some (_, _) := rfl
  obtain ⟨history, c, frame, run, hframe, hsize⟩ :=
    (Run.start.replay hreplay).exists_locals rfl (Nat.zero_le maxSlots) le_rfl
  exact ⟨history, c, frame, run, hframe, hsize, slots_handed_out run⟩

end CilAssembly
