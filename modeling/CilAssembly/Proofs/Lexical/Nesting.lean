import CilAssembly.Proofs.Generation.Effects
import CilAssembly.Proofs.Lexical.Entry

/-!
Switches of the lexical context, nested in one another: items that are entered and left, and regions
that choose their arithmetic. Only the innermost open switch can be undone. Whatever happens in
between, undoing a switch puts back what it replaced and leaves everything else as it is.
-/
namespace CilAssembly

/-- An open switch, with the lexical context to go back to. -/
inductive Switch
  | item (before : Lexical)
  | region (before : Lexical)

/-- A unit with its open switches, the innermost one first. -/
structure Nest where
  switches : List Switch
  context : Context

def Nest.depth (s : Nest) : Nat :=
  s.switches.length

/-- What can be done next: an operation, or opening or undoing a switch. -/
inductive Move
  | perform (op : Operation)
  | enter (tree : SyntaxTree) (item : Item)
  | leave
  | openRegion (checked : Bool)
  | closeRegion

/-- Taking a move. An item without a node is not entered; a switch that is undone hands back what it
kept. -/
inductive Nest.Takes : Nest → Move → Nest → Prop
  | perform {switches : List Switch} {op : Operation} {label : Option Label} {events : List Event}
      {c d : Context} (step : Step c op label events d) :
      Takes ⟨switches, c⟩ (.perform op) ⟨switches, d⟩
  | enter {switches : List Switch} {tree : SyntaxTree} {item : Item} {before : Lexical}
      {c d : Context} (entered : Gen.enterItem tree item c = .ok (some before) d) :
      Takes ⟨switches, c⟩ (.enter tree item) ⟨.item before :: switches, d⟩
  | pass {switches : List Switch} {tree : SyntaxTree} {item : Item} {c d : Context}
      (unbound : Gen.enterItem tree item c = .ok none d) :
      Takes ⟨switches, c⟩ (.enter tree item) ⟨switches, d⟩
  | leave {switches : List Switch} {before : Lexical} {c d : Context}
      (left : Gen.leaveItem before c = .ok () d) :
      Takes ⟨.item before :: switches, c⟩ .leave ⟨switches, d⟩
  | openRegion {switches : List Switch} {checked : Bool} {before : Lexical} {c d : Context}
      (entered : Gen.enterOverflow checked c = .ok before d) :
      Takes ⟨switches, c⟩ (.openRegion checked) ⟨.region before :: switches, d⟩
  | closeRegion {switches : List Switch} {before : Lexical} {c d : Context}
      (left : Gen.leaveOverflow before c = .ok () d) :
      Takes ⟨.region before :: switches, c⟩ .closeRegion ⟨switches, d⟩

/-- Moves one after another from a context on, with where each was taken from. -/
inductive NestedRun (b : Context) : List (Nest × Move) → Nest → Prop
  | start : NestedRun b [] ⟨[], b⟩
  | step {past : List (Nest × Move)} {s t : Nest} {move : Move} (run : NestedRun b past s)
      (takes : s.Takes move t) : NestedRun b (past ++ [(s, move)]) t

/-- A move from a nest opens a switch. -/
inductive Nest.Opens (s : Nest) : Move → Switch → Prop
  | item (tree : SyntaxTree) (item : Item) : Opens s (.enter tree item) (.item s.context.lexical)
  | region (checked : Bool) : Opens s (.openRegion checked) (.region s.context.lexical)

/-- Each open switch was opened by some move, and from then on at least that many were open. -/
inductive Bracketed : List (Nest × Move) → List Switch → Prop
  | none (past : List (Nest × Move)) : Bracketed past []
  | opened {past inner : List (Nest × Move)} {s : Nest} {move : Move} {switch : Switch}
      (outer : Bracketed past s.switches) (opens : s.Opens move switch)
      (deeper : ∀ entry ∈ inner, s.depth < entry.1.depth) :
      Bracketed (past ++ (s, move) :: inner) (switch :: s.switches)

namespace Bracketed
variable {past more : List (Nest × Move)} {switches : List Switch}

/-- Moves that undo none of the switches change nothing about how they were opened. -/
lemma append (h : Bracketed past switches)
    (hmore : ∀ entry ∈ more, switches.length ≤ entry.1.depth) :
    Bracketed (past ++ more) switches := by
  cases h with
  | none => exact .none _
  | opened outer opens deeper =>
    rw [List.append_assoc, List.cons_append]
    refine .opened outer opens ?_
    intro entry hentry
    obtain hentry | hentry := List.mem_append.mp hentry
    · exact deeper entry hentry
    · exact hmore entry hentry

/-- Without the innermost switch. -/
lemma tail {switch : Switch} (h : Bracketed past (switch :: switches)) :
    Bracketed past switches := by
  cases h with
  | @opened past inner s move _ outer opens deeper =>
    -- Since the switch was opened no move was taken with fewer open than at the opening.
    refine outer.append ?_
    intro entry hentry
    obtain rfl | hentry := List.mem_cons.mp hentry
    · exact le_rfl
    · exact (deeper entry hentry).le

/-- A switch opened last. -/
lemma push {s : Nest} {move : Move} {switch : Switch} (h : Bracketed past s.switches)
    (opens : s.Opens move switch) : Bracketed (past ++ [(s, move)]) (switch :: s.switches) :=
  .opened h opens (List.forall_mem_nil _)

/-- A move opens a switch, undoes the innermost one or leaves the open ones alone. -/
lemma step {s t : Nest} {move : Move} (h : Bracketed past s.switches) (htakes : s.Takes move t) :
    Bracketed (past ++ [(s, move)]) t.switches := by
  have hsame : Bracketed (past ++ [(s, move)]) s.switches := by
    refine h.append ?_
    intro entry hentry
    rw [List.mem_singleton.mp hentry]
    exact le_rfl
  cases htakes with
  | perform | pass => exact hsame
  | leave | closeRegion => exact hsame.tail
  | @enter switches tree item before c d entered =>
    obtain ⟨⟩ | ⟨lexical⟩ := (Gen.enterItem_ensures tree item c).done entered
    exact h.push (.item tree item)
  | @openRegion switches checked before c d entered =>
    cases entered
    exact h.push (.region checked)

end Bracketed

lemma NestedRun.bracketed {b : Context} {past : List (Nest × Move)} {t : Nest}
    (run : NestedRun b past t) : Bracketed past t.switches := by
  induction run with
  | start => exact .none []
  | step _ takes ih => exact ih.step takes

/-- The context in which a step ends, however it ends. -/
def Gen.ends {α : Type} (x : Gen α) (c : Context) : Context :=
  match x c with
  | .ok _ d => d
  | .error _ d => d

lemma Gen.ends_restoring {α : Type} (restore : Lexical → Lexical) (body : Gen α) (c : Context) :
    (restoring restore body).ends c =
      { body.ends c with lexical := restore (body.ends c).lexical } := by
  unfold ends restoring
  cases body c <;> rfl

lemma Gen.ends_map {α β : Type} (f : α → β) (body : Gen α) (c : Context) :
    (f <$> body).ends c = body.ends c := by
  unfold ends
  rw [map_apply]
  cases body c <;> rfl

/-- A step in an item ends in the lexical context from before, and all else is as it left it. -/
lemma Gen.ends_withItem {α : Type} {tree : SyntaxTree} {item : Item} {before : Lexical}
    {c d : Context} (hd : enterItem tree item c = .ok (some before) d) (body : Gen α) :
    (withItem tree item body).ends c = { body.ends d with lexical := c.lexical } := by
  have hrest : (withItem tree item body).ends c =
      (restoring (fun _ => before) (some <$> body)).ends d := by
    unfold ends withItem
    rw [bind_apply, hd]
  obtain ⟨⟩ | ⟨lexical⟩ := (enterItem_ensures tree item c).done hd
  rw [hrest, ends_restoring, ends_map]

/-- A step in a region ends with the arithmetic from before, and all else is as it left it. -/
lemma Gen.ends_withOverflow {α : Type} (checked : Bool) (body : Gen α) (c : Context) :
    (withOverflow checked body).ends c =
      let d := body.ends { c with lexical := { c.lexical with checked, checkedChanged := true } }
      { d with lexical := c.lexical.afterRegion d.lexical } :=
  ends_restoring c.lexical.afterRegion body _

/-- Switches are undone exactly, at any depth and whatever happens in between. A move that undoes a
switch belongs to the last move that was taken with as few switches open as there are now. If that
entered an item, the lexical context from before it is back; if it opened a region, the arithmetic
from before it is. Nothing else is undone. The same holds of a step in an item and in a region,
whichever way the step ends. -/
theorem switches_undone :
    (∀ (b : Context) (past : List (Nest × Move)) (t t' : Nest) (closing : Move),
      NestedRun b past t → t.Takes closing t' → closing = .leave ∨ closing = .closeRegion →
      ∃ earlier s opening inner, past = earlier ++ (s, opening) :: inner ∧
        (∀ entry ∈ inner, s.depth < entry.1.depth) ∧ t'.switches = s.switches ∧
        ((∃ tree item, opening = .enter tree item) ∧ closing = .leave ∧
            t'.context = { t.context with lexical := s.context.lexical } ∨
          (∃ checked, opening = .openRegion checked) ∧ closing = .closeRegion ∧
            t'.context =
              { t.context with
                lexical :=
                  { t.context.lexical with
                    checked := s.context.lexical.checked
                    checkedChanged := s.context.lexical.checkedChanged } })) ∧
    (∀ {α : Type} (tree : SyntaxTree) (item : Item) (body : Gen α) (c d : Context)
      (before : Lexical), Gen.enterItem tree item c = .ok (some before) d →
      (Gen.withItem tree item body).ends c = { body.ends d with lexical := c.lexical }) ∧
    ∀ {α : Type} (checked : Bool) (body : Gen α) (c : Context),
      (Gen.withOverflow checked body).ends c =
        let d := body.ends { c with lexical := { c.lexical with checked, checkedChanged := true } }
        { d with
          lexical :=
            { d.lexical with
              checked := c.lexical.checked
              checkedChanged := c.lexical.checkedChanged } } := by
  refine ⟨?_, fun tree item body c d before hd => Gen.ends_withItem hd body,
    fun checked body c => Gen.ends_withOverflow checked body c⟩
  intro b past t t' closing run hcloses hclosing
  -- The bracket structure of the run names the move that opened the innermost switch.
  have hopened := run.bracketed
  cases hcloses with
  | perform | enter | pass | openRegion => simp at hclosing
  | leave left =>
    cases left
    cases hopened with
    | opened _ opens hdeeper =>
      cases opens with
      | item tree item => exact ⟨_, _, _, _, rfl, hdeeper, rfl, .inl ⟨⟨tree, item, rfl⟩, rfl, rfl⟩⟩
  | closeRegion left =>
    cases left
    cases hopened with
    | opened _ opens hdeeper =>
      cases opens with
      | region checked => exact ⟨_, _, _, _, rfl, hdeeper, rfl, .inr ⟨⟨checked, rfl⟩, rfl, rfl⟩⟩

/-- A method is entered, and in it a checked region with an instruction and a write to the lexical
context. Leaving the method goes back to where no switch was open. -/
theorem switches_undone_nested :
    ∃ past t t', NestedRun genericUnit past t ∧ t.Takes .leave t' ∧
      past.map Prod.snd =
        [.enter genericTree (.ofMethod ⟨0⟩), .openRegion true, .perform (.emit (.simple .nop)),
          .perform (.keep (.setLexical { scope := ⟨9⟩ })), .closeRegion] ∧
      t.context.lexical.scope = ⟨9⟩ ∧
      ∃ s opening, (s, opening) ∈ past ∧ s.switches = [] ∧
        t'.context = { t.context with lexical := s.context.lexical } := by
  have hregion (s : Nest) : s.Takes (.openRegion true) _ := .openRegion rfl
  have hnop (s : Nest) : s.Takes (.perform (.emit (.simple .nop))) _ := .perform (.done rfl)
  have hwrite (s : Nest) : s.Takes (.perform (.keep (.setLexical { scope := ⟨9⟩ }))) _ :=
    .perform (.done rfl)
  have hleave (c : Context) : Nest.Takes ⟨[.item genericUnit.lexical], c⟩ .leave _ := .leave rfl
  have hentered := Gen.enterItem_apply resolves_genericUnit rfl rfl
  have run := NestedRun.start.step (.enter hentered) |>.step (hregion _) |>.step (hnop _)
    |>.step (hwrite _) |>.step (.closeRegion rfl)
  refine ⟨_, _, _, run, hleave _, rfl, rfl, ?_⟩
  obtain ⟨earlier, s, opening, inner, hpast, -, hswitches, ⟨-, -, hundone⟩ | ⟨-, hother, -⟩⟩ :=
    switches_undone.1 _ _ _ _ _ run (hleave _) (.inl rfl)
  · refine ⟨s, opening, ?_, hswitches.symm, hundone⟩
    rw [hpast]
    exact List.mem_append_right _ List.mem_cons_self
  · cases hother

end CilAssembly
