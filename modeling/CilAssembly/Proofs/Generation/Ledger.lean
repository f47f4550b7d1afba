import CilAssembly.Proofs.Generation.Effects
import Mathlib.Data.List.Nodup
import Mathlib.Data.List.Sigma

/-!
The marks of labels over a run: they agree with the operations that handed labels out and placed
them.
-/
namespace CilAssembly

lemma Mark.isPlaced_eq_false {mark : Mark} : mark.isPlaced = false ↔ mark = .unplaced := by
  cases mark <;> simp [isPlaced]

namespace Labels
variable {labels : Labels} {id : LabelId}

lemma mark?_congr {labels labels' : Labels} (h : labels'.marks = labels.marks) (id : LabelId) :
    labels'.mark? id = labels.mark? id := by
  rw [mark?, mark?, h]

lemma mark?_succ (labels : Labels) (index : Nat) :
    labels.mark? ⟨index + 1⟩ = labels.marks[index]? := rfl

/-- The labels handed out have the numbers from one on. -/
lemma exists_mark?_iff (labels : Labels) (number : Nat) :
    (∃ mark, labels.mark? ⟨number⟩ = some mark) ↔ number ∈ List.range' 1 labels.created := by
  rw [List.mem_range'_1, ← Option.isSome_iff_exists]
  cases number with
  | zero => simp [mark?]
  | succ index =>
    rw [mark?_succ, isSome_getElem?]
    simp only [created]
    omega

lemma mark?_add (labels : Labels) (id : LabelId) :
    labels.add.mark? id = if id = labels.next then some .unplaced else labels.mark? id := by
  obtain ⟨number⟩ := id
  cases number with
  | zero => rfl
  | succ index =>
    simp only [mark?_succ, add, next, created, LabelId.mk.injEq, Nat.add_right_cancel_iff,
      Array.getElem?_push]

lemma mark?_next_eq_none (labels : Labels) : labels.mark? labels.next = none := by
  simp [next, mark?_succ, created]

lemma mark?_place {mark : Mark} (h : labels.mark? id = some mark) (leave : Bool) (other : LabelId) :
    (labels.place id leave).mark? other =
      if other = id then some (.placed leave) else labels.mark? other := by
  obtain ⟨number⟩ := id
  obtain ⟨other⟩ := other
  cases number with
  | zero => cases h
  | succ index =>
    cases other with
    | zero => simp [mark?]
    | succ other =>
      rw [mark?_succ] at h
      obtain ⟨hindex, -⟩ := Array.getElem?_eq_some_iff.mp h
      simp only [mark?_succ, place, LabelId.mk.injEq, Nat.add_right_cancel_iff, Nat.add_sub_cancel,
        Array.getElem?_setIfInBounds, hindex, if_true]
      by_cases hother : other = index
      · rw [if_pos hother, if_pos hother.symm]
      · rw [if_neg hother, if_neg (Ne.symm hother)]

lemma mem_unplaced : id ∈ labels.unplaced ↔ labels.mark? id = some .unplaced := by
  obtain ⟨number⟩ := id
  simp only [unplaced, List.mem_filterMap, Prod.exists, List.mk_mem_zipIdx_iff_getElem?]
  cases number with
  | zero => simp [mark?]
  | succ index =>
    rw [mark?_succ]
    constructor
    · rintro ⟨mark, index, hmark, hid⟩
      split at hid
      case isTrue => cases hid
      case isFalse hplaced =>
        cases hid
        rw [← Mark.isPlaced_eq_false.mp (Bool.eq_false_iff.mpr hplaced)]
        simpa using hmark
    · intro h
      exact ⟨.unplaced, index, by simpa using h, rfl⟩

lemma mem_marks {mark : Mark} :
    mark ∈ labels.marks ↔ ∃ id, labels.mark? id = some mark := by
  rw [Array.mem_iff_getElem?]
  constructor
  · rintro ⟨index, hindex⟩
    exact ⟨⟨index + 1⟩, hindex⟩
  · rintro ⟨⟨number⟩, hid⟩
    cases number with
    | zero => cases hid
    | succ index => exact ⟨index, hid⟩

lemma nodup_unplaced (labels : Labels) : labels.unplaced.Nodup := by
  refine List.Nodup.filterMap ?_ (List.Nodup.of_map Prod.snd (List.nodup_zipIdx_map_snd _))
  rintro ⟨mark, index⟩ ⟨mark', index'⟩ id hid hid'
  cases mark with
  | placed => cases hid
  | unplaced =>
    cases mark' with
    | placed => cases hid'
    | unplaced =>
      cases hid
      cases hid'
      rfl

lemma placed_add_length_unplaced (labels : Labels) :
    labels.placed + labels.unplaced.length = labels.created := by
  have hlength : labels.unplaced.length = labels.marks.toList.countP (!·.isPlaced) := by
    rw [unplaced, List.length_filterMap_eq_countP]
    nth_rewrite 2 [← List.zipIdx_map_fst 0 labels.marks.toList]
    rw [List.countP_map]
    refine List.countP_congr ?_
    rintro ⟨mark, index⟩ -
    cases mark <;> simp [Mark.isPlaced]
  rw [hlength, placed, created, ← Array.countP_toList, ← Array.length_toList,
    List.length_eq_countP_add_countP Mark.isPlaced]
  simp

/-- What an operation does to the labels: it hands one out, places one, or does neither. -/
inductive Change (labels : Labels) : Option Label → Option (LabelId × Bool) → Labels → Prop
  | keep {labels' : Labels} (marks : labels'.marks = labels.marks) : Change labels none none labels'
  | hand (leave : Bool) : Change labels (some ⟨labels.next, leave⟩) none labels.add
  | place (id : LabelId) (leave : Bool) (unplaced : labels.mark? id = some .unplaced) :
      Change labels none (some (id, leave)) (labels.place id leave)

end Labels

lemma Effect.change {c d : Context} {op : Operation} {label : Option Label} {events : List Event}
    (h : Effect c op label events d) : c.labels.Change label op.placement? d.labels := by
  cases h with
  | emit e => exact .keep (by rw [Context.labels_emitted])
  | keep keeps => exact .keep (congrArg Labels.marks keeps.labels)
  | newLabel leave room => exact .hand leave
  | place unplaced => exact .place _ _ unplaced
  | beginMethod => exact .keep (congrArg Labels.marks (c.labels_emitted _))
  | endMethod => exact .keep (by rw [Context.labels_emitted]; rfl)
  | allocLocal => exact .keep (congrArg Labels.marks (c.labels_emitted _))
  | refused places =>
    rw [places]
    exact .keep rfl
  | _ => exact .keep rfl

namespace History

/-- The labels handed out so far. -/
def ids (history : History) : List LabelId :=
  history.labels.map Label.id

lemma placements_record (history : History) (op : Operation) (label : Option Label)
    (events : List Event) :
    (history.record op label events).placements = history.placements ++ op.placement?.toList := by
  cases hplacement : op.placement? <;> simp [placements, record, hplacement]

lemma ids_record (history : History) (op : Operation) (label : Option Label)
    (events : List Event) :
    (history.record op label events).ids = history.ids ++ label.toList.map Label.id := by
  simp [ids, record]

end History

/-- The marks of the labels agree with what happened. -/
structure Ledger (history : History) (labels : Labels) : Prop where
  handed : history.ids = (List.range' 1 labels.created).map LabelId.mk
  placed : ∀ id leave, labels.mark? id = some (.placed leave) ↔ (id, leave) ∈ history.placements
  once : (history.placements.map Prod.fst).Nodup

namespace Ledger
variable {history : History} {labels labels' : Labels}

lemma empty : Ledger {} {} where
  handed := rfl
  placed := by simp [History.placements, Labels.mark?]
  once := List.nodup_nil

lemma mem_ids (h : Ledger history labels) {id : LabelId} :
    id ∈ history.ids ↔ ∃ mark, labels.mark? id = some mark := by
  rw [h.handed, labels.exists_mark?_iff id.number]
  exact List.mem_map_of_injective fun _ _ => congrArg LabelId.number

lemma mem_placed (h : Ledger history labels) {id : LabelId} :
    id ∈ history.placements.map Prod.fst ↔ ∃ leave, labels.mark? id = some (.placed leave) := by
  simp only [h.placed, List.mem_map, Prod.exists, exists_and_right, exists_eq_right]

lemma nodup_ids (h : Ledger history labels) : history.ids.Nodup := by
  rw [h.handed]
  exact (List.nodup_range' 1).map fun _ _ => congrArg LabelId.number

/-- The labels handed out are those not placed and those placed, without overlap. -/
lemma perm (h : Ledger history labels) :
    (labels.unplaced ++ history.placements.map Prod.fst).Perm history.ids := by
  have hdisjoint : labels.unplaced.Disjoint (history.placements.map Prod.fst) := by
    intro id hunplaced hplaced
    obtain ⟨leave, hleave⟩ := h.mem_placed.mp hplaced
    rw [Labels.mem_unplaced.mp hunplaced] at hleave
    cases hleave
  have hnodup := labels.nodup_unplaced.append h.once hdisjoint
  refine (List.perm_ext_iff_of_nodup hnodup h.nodup_ids).mpr fun id => ?_
  rw [List.mem_append, Labels.mem_unplaced, h.mem_placed, h.mem_ids]
  constructor
  · rintro (hunplaced | ⟨leave, hplaced⟩)
    · exact ⟨_, hunplaced⟩
    · exact ⟨_, hplaced⟩
  · rintro ⟨mark, hmark⟩
    cases mark with
    | unplaced => exact .inl hmark
    | placed leave => exact .inr ⟨leave, hmark⟩

lemma placed_eq (h : Ledger history labels) : labels.placed = history.placements.length := by
  have hlength := h.perm.length_eq
  have hcount := labels.placed_add_length_unplaced
  rw [h.handed] at hlength
  simp only [List.length_append, List.length_map, List.length_range'] at hlength
  omega

/-- The labels are complete where every label handed out is placed and no switch table is open. -/
lemma complete_iff (h : Ledger history labels) :
    labels.Complete ↔
      (∀ id ∈ history.ids, id ∈ history.placements.map Prod.fst) ∧ labels.switch = none := by
  constructor
  · intro hcomplete
    refine ⟨fun id hid => ?_, hcomplete.switch⟩
    obtain ⟨mark, hmark⟩ := h.mem_ids.mp hid
    cases mark with
    | unplaced => cases hcomplete.marks _ (Labels.mem_marks.mpr ⟨id, hmark⟩)
    | placed leave => exact h.mem_placed.mpr ⟨leave, hmark⟩
  · rintro ⟨hplaced, hswitch⟩
    refine ⟨hswitch, fun mark hmark => ?_⟩
    obtain ⟨id, hid⟩ := Labels.mem_marks.mp hmark
    obtain ⟨leave, hleave⟩ := h.mem_placed.mp (hplaced id (h.mem_ids.mpr ⟨mark, hid⟩))
    cases hid.symm.trans hleave
    rfl

/-- What an operation does to the labels is recorded. -/
lemma change (h : Ledger history labels) {op : Operation} {label : Option Label}
    (events : List Event) (hchange : labels.Change label op.placement? labels') :
    Ledger (history.record op label events) labels' := by
  have hplacements := history.placements_record op label events
  generalize op.placement? = placement at hchange hplacements
  cases hchange with
  | keep marks =>
    have hsame : (history.record op none events).placements = history.placements := by
      simpa using hplacements
    refine ⟨?_, fun id leave => ?_, hsame ▸ h.once⟩
    · have hcreated : labels'.created = labels.created := congrArg Array.size marks
      rw [History.ids_record, hcreated]
      simpa using h.handed
    · rw [hsame, Labels.mark?_congr marks, h.placed]
  | hand leave =>
    have hsame : (history.record op (some ⟨labels.next, leave⟩) events).placements =
        history.placements := by simpa using hplacements
    refine ⟨?_, fun id leave => ?_, hsame ▸ h.once⟩
    · have hcreated : labels.add.created = labels.created + 1 := by
        simp [Labels.created, Labels.add]
      rw [History.ids_record, hcreated, List.range'_1_concat, h.handed, List.map_append]
      simp [Labels.next, Nat.add_comm]
    · rw [hsame, Labels.mark?_add, ← h.placed]
      split
      case isFalse => rfl
      case isTrue hnext =>
        rw [hnext, labels.mark?_next_eq_none]
        simp
  | place id leave unplaced =>
    have hnew : (history.record op none events).placements = history.placements ++ [(id, leave)] :=
      hplacements
    refine ⟨?_, fun id' leave' => ?_, ?_⟩
    · have hcreated : (labels.place id leave).created = labels.created :=
        Array.size_setIfInBounds ..
      rw [History.ids_record, hcreated]
      simpa using h.handed
    · rw [hnew, Labels.mark?_place unplaced, List.mem_append, List.mem_singleton, ← h.placed]
      split
      case isFalse hother => simp [hother]
      case isTrue hid =>
        rw [hid, unplaced]
        simp [eq_comm]
    · have hfresh : id ∉ history.placements.map Prod.fst := by
        rw [h.mem_placed, unplaced]
        simp
      rw [hnew, List.map_append]
      exact h.once.append (List.nodup_singleton _) (by simpa using hfresh)

end Ledger

lemma Run.ledger {rule : History → Operation → Prop} {options : Options} {history : History}
    {c : Context} (run : Run rule (.create options) history c) : Ledger history c.labels := by
  induction run with
  | start => exact .empty
  | step _ _ step ih => exact ih.change _ step.effect.change

end CilAssembly
