import CilAssembly.Proofs.Brainfuck.Brackets
import CilAssembly.Proofs.Brainfuck.Execution

/-!
A text read character by character. Brackets jump to their partners, and characters that are no
commands are passed over. Inside a longer text, what a stretch does is a relation on stores.
-/
namespace CilAssembly.Brainfuck

/-- Moves characters from one side to the other until the partner of a bracket has moved. A further
bracket of the same kind first needs a partner of its own. -/
def seek (bracket partner : Char) : Nat → List Char → List Char → Option (List Char × List Char)
  | _, [], _ => none
  | 0, c :: source, target =>
    if c = partner then some (source, c :: target)
    else seek bracket partner (if c = bracket then 1 else 0) source (c :: target)
  | depth + 1, c :: source, target =>
    seek bracket partner
      (if c = partner then depth else if c = bracket then depth + 2 else depth + 1)
      source (c :: target)

/-- What a character other than a bracket does. -/
def interpret (c : Char) (s : Store) : Except Evaluation.Trap Store :=
  match c with
  | '+' => do s.write ((← s.cell) + 1)
  | '-' => do s.write ((← s.cell) - 1)
  | '>' => .ok { s with pointer := s.pointer + 1 }
  | '<' => .ok { s with pointer := s.pointer - 1 }
  | '.' => do return { s with output := s.output ++ [(← s.cell).toUInt16] }
  | ',' => do return { ← s.write (.ofInt s.input.head.toInt) with input := s.input.tail }
  | _ => .ok s

/-- A place in a text, with the characters before it from the nearest on, and a store. -/
structure Reading where
  passed : List Char
  ahead : List Char
  store : Store

namespace Reading

/-- One step. There is none at the end of the text, where the current cell is off the tape and where
a bracket has no partner. -/
def step? (r : Reading) : Option Reading :=
  match r.ahead with
  | [] => none
  | c :: ahead =>
    if c = '[' then
      match r.store.cell with
      | .ok 0 => (seek '[' ']' 0 ahead (c :: r.passed)).map fun (ahead, passed) =>
          { r with passed, ahead }
      | .ok _ => some { r with passed := c :: r.passed, ahead }
      | .error _ => none
    else if c = ']' then
      match r.store.cell with
      | .ok 0 => some { r with passed := c :: r.passed, ahead }
      | .ok _ => (seek ']' '[' 0 r.passed (c :: ahead)).map fun (passed, ahead) =>
          { r with passed, ahead }
      | .error _ => none
    else
      match interpret c r.store with
      | .ok store => some ⟨c :: r.passed, ahead, store⟩
      | .error _ => none

/-- Reading comes to the end of the text in a number of steps. -/
inductive Halts : Nat → Reading → Store → Prop
  | stop {passed s} : Halts 0 ⟨passed, [], s⟩ s
  | next {n r r' t} (step : r.step? = some r') (tail : Halts n r' t) : Halts (n + 1) r t

end Reading

lemma seek_cons_partner {bracket partner : Char} (depth : Nat) (source target : List Char) :
    seek bracket partner (depth + 1) (partner :: source) target =
      seek bracket partner depth source (partner :: target) := by
  rw [seek, if_pos rfl]

lemma seek_cons_other {bracket partner c : Char} (h : c ≠ partner) (depth : Nat)
    (source target : List Char) :
    seek bracket partner depth (c :: source) target =
      seek bracket partner (depth + [c].count bracket) source (c :: target) := by
  by_cases hbracket : c = bracket
  · have hcount : [c].count bracket = 1 := by simp [hbracket]
    rw [hcount]
    cases depth <;> rw [seek, if_neg h, if_pos hbracket]
  · have hcount : [c].count bracket = 0 := by simp [hbracket]
    rw [hcount]
    cases depth <;> rw [seek, if_neg h, if_neg hbracket]

/-- A stretch that closes no bracket from before it is passed over. -/
lemma seek_append {bracket partner : Char} (hne : bracket ≠ partner) {depth : Nat} {cs : List Char}
    (h : ∀ before, before <+: cs → before.count partner ≤ before.count bracket + depth)
    (source target : List Char) :
    seek bracket partner depth (cs ++ source) target =
      seek bracket partner (depth + cs.count bracket - cs.count partner) source
        (cs.reverse ++ target) := by
  induction cs generalizing depth target with
  | nil => rfl
  | cons c cs ih =>
    have hcons (before : List Char) (hbefore : before <+: cs) :=
      h (c :: before) (List.cons_prefix_cons.mpr ⟨rfl, hbefore⟩)
    have hreverse : (c :: cs).reverse ++ target = cs.reverse ++ c :: target := by simp
    rw [List.cons_append, hreverse]
    by_cases hpartner : c = partner
    · subst c
      simp only [List.count_cons_self, List.count_cons_of_ne hne.symm] at hcons ⊢
      cases depth with
      | zero =>
        have hfirst := hcons [] List.nil_prefix
        simp at hfirst
      | succ depth =>
        have hdepth : depth + 1 + cs.count bracket - (cs.count partner + 1) =
            depth + cs.count bracket - cs.count partner := by omega
        rw [seek_cons_partner, hdepth]
        apply ih
        intro before hbefore
        have hcount := hcons before hbefore
        omega
    · have hsplit (before : List Char) :
          (c :: before).count bracket = [c].count bracket + before.count bracket := by
        rw [← List.count_append, List.singleton_append]
      have hdepth : depth + ([c].count bracket + cs.count bracket) - cs.count partner =
          depth + [c].count bracket + cs.count bracket - cs.count partner := by omega
      rw [seek_cons_other hpartner, List.count_cons_of_ne hpartner, hsplit cs, hdepth]
      apply ih
      intro before hbefore
      have hcount := hcons before hbefore
      rw [List.count_cons_of_ne hpartner, hsplit] at hcount
      omega

section
variable {cs : List Char} (h : Balanced cs)
include h

/-- From the start of a loop to the end of it. -/
lemma seek_closing (ahead passed : List Char) :
    seek '[' ']' 0 (cs ++ ']' :: ahead) passed = some (ahead, ']' :: (cs.reverse ++ passed)) := by
  have hdepth : 0 + cs.count '[' - cs.count ']' = 0 := by
    rw [h.count]
    omega
  have hprefix : ∀ before, before <+: cs → before.count ']' ≤ before.count '[' + 0 := h.nested
  rw [seek_append (by decide) hprefix, hdepth, seek, if_pos rfl]

/-- From the end of a loop to the start of it. -/
lemma seek_opening (ahead passed : List Char) :
    seek ']' '[' 0 (cs.reverse ++ '[' :: passed) ahead = some (passed, '[' :: (cs ++ ahead)) := by
  have hdepth : 0 + cs.reverse.count ']' - cs.reverse.count '[' = 0 := by
    rw [List.count_reverse, List.count_reverse, h.count]
    omega
  have hsuffix (before : List Char) (hbefore : before <+: cs.reverse) :
      before.count '[' ≤ before.count ']' + 0 := by
    obtain ⟨more, hmore⟩ := hbefore
    have hcs : cs = more.reverse ++ before.reverse := by
      rw [← List.reverse_append, hmore, List.reverse_reverse]
    have hnested := h.nested more.reverse (hcs ▸ List.prefix_append _ _)
    have hcount := h.count
    rw [hcs] at hcount
    simp only [List.count_append, List.count_reverse] at hnested hcount
    omega
  rw [seek_append (by decide) hsuffix, hdepth, seek, if_pos rfl, List.reverse_reverse]

/-- Reading goes into a loop or past it. -/
lemma halts_opening {n : Nat} {passed ahead : List Char} {s u : Store}
    (hn : Reading.Halts n ⟨passed, '[' :: (cs ++ ']' :: ahead), s⟩ u) :
    ∃ m, n = m + 1 ∧
      ((s.cell = .ok 0 ∧ Reading.Halts m ⟨']' :: (cs.reverse ++ '[' :: passed), ahead, s⟩ u) ∨
        ∃ c, s.cell = .ok c ∧ c ≠ 0 ∧
          Reading.Halts m ⟨'[' :: passed, cs ++ ']' :: ahead, s⟩ u) := by
  cases hn with
  | @next m _ r' _ step tail =>
    refine ⟨m, rfl, ?_⟩
    simp only [Reading.step?, if_true, seek_closing h] at step
    split at step
    case h_1 hcell =>
      cases step
      exact .inl ⟨hcell, tail⟩
    case h_2 c hzero hcell =>
      cases step
      exact .inr ⟨c, hcell, fun hc => hzero (hc ▸ rfl), tail⟩
    case h_3 => cases step

/-- Reading goes on after a loop or back to its start. -/
lemma halts_closing {n : Nat} {passed ahead : List Char} {s u : Store}
    (hn : Reading.Halts n ⟨cs.reverse ++ '[' :: passed, ']' :: ahead, s⟩ u) :
    ∃ m, n = m + 1 ∧
      ((s.cell = .ok 0 ∧ Reading.Halts m ⟨']' :: (cs.reverse ++ '[' :: passed), ahead, s⟩ u) ∨
        ∃ c, s.cell = .ok c ∧ c ≠ 0 ∧
          Reading.Halts m ⟨passed, '[' :: (cs ++ ']' :: ahead), s⟩ u) := by
  cases hn with
  | @next m _ r' _ step tail =>
    refine ⟨m, rfl, ?_⟩
    simp only [Reading.step?, Char.reduceEq, if_false, if_true, seek_opening h] at step
    split at step
    case h_1 hcell =>
      cases step
      exact .inl ⟨hcell, tail⟩
    case h_2 c hzero hcell =>
      cases step
      exact .inr ⟨c, hcell, fun hc => hzero (hc ▸ rfl), tail⟩
    case h_3 => cases step

end

/-- Reading a stretch of a longer text relates stores: where reading halts, it gets through the
stretch, and what is left takes no more steps. -/
structure Covers (effect : Store → Store → Prop) (cs : List Char) : Prop where
  balanced : Balanced cs
  halts : ∀ ⦃n passed ahead s u⦄, Reading.Halts n ⟨passed, cs ++ ahead, s⟩ u →
    ∃ t, effect s t ∧ ∃ m ≤ n, Reading.Halts m ⟨cs.reverse ++ passed, ahead, t⟩ u

section
variable {c : Char} (h : Symbol.ofChar? c = none)
include h

lemma ne_opening_of_comment : c ≠ '[' := by
  rintro rfl
  cases h

lemma ne_closing_of_comment : c ≠ ']' := by
  rintro rfl
  cases h

lemma interpret_comment (s : Store) : interpret c s = .ok s := by
  unfold interpret
  split
  case h_7 => rfl
  all_goals cases h

end

/-- Repeats an effect while the current cell is not zero. -/
inductive Iterates (effect : Store → Store → Prop) : Store → Store → Prop
  | stop {s} (test : s.cell = .ok 0) : Iterates effect s s
  | again {s t u c} (test : s.cell = .ok c) (entered : c ≠ 0) (body : effect s t)
      (tail : Iterates effect t u) : Iterates effect s u

namespace Covers
variable {effect effect' : Store → Store → Prop} {cs ds : List Char}

lemma nil : Covers Eq [] := by
  refine ⟨.nil, ?_⟩
  intro n passed ahead s u hn
  exact ⟨s, rfl, n, le_rfl, hn⟩

lemma mono (h : Covers effect cs) (hmono : ∀ s t, effect s t → effect' s t) :
    Covers effect' cs := by
  refine ⟨h.balanced, ?_⟩
  intro n passed ahead s u hn
  obtain ⟨t, ht, hm⟩ := h.halts hn
  exact ⟨t, hmono s t ht, hm⟩

lemma append (h : Covers effect cs) (h' : Covers effect' ds) :
    Covers (fun s u => ∃ t, effect s t ∧ effect' t u) (cs ++ ds) := by
  refine ⟨h.balanced.append h'.balanced, ?_⟩
  intro n passed ahead s u hn
  rw [List.append_assoc] at hn
  obtain ⟨t, ht, m, hmn, hm⟩ := h.halts hn
  obtain ⟨v, hv, l, hlm, hl⟩ := h'.halts hm
  refine ⟨v, ⟨t, ht, hv⟩, l, hlm.trans hmn, ?_⟩
  rwa [List.reverse_append, List.append_assoc]

/-- A character that is no bracket. -/
lemma singleton {c : Char} (hopening : c ≠ '[') (hclosing : c ≠ ']') :
    Covers (fun s t => interpret c s = .ok t) [c] := by
  refine ⟨.singleton hopening hclosing, ?_⟩
  intro n passed ahead s u hn
  cases hn with
  | @next m _ r' _ step tail =>
    simp only [Reading.step?, List.singleton_append, if_neg hopening, if_neg hclosing] at step
    split at step
    case h_1 t ht =>
      cases step
      exact ⟨t, ht, m, Nat.le_succ m, tail⟩
    case h_2 => cases step

/-- Comments do nothing. -/
lemma comments (h : ∀ c ∈ cs, Symbol.ofChar? c = none) : Covers Eq cs := by
  induction cs with
  | nil => exact nil
  | cons c cs ih =>
    have hc := h c List.mem_cons_self
    have hfirst : Covers Eq [c] := by
      apply (singleton (ne_opening_of_comment hc) (ne_closing_of_comment hc)).mono
      intro s t hst
      exact Except.ok.inj ((interpret_comment hc s).symm.trans hst)
    apply (hfirst.append (ih fun d hd => h d (List.mem_cons_of_mem c hd))).mono
    rintro s u ⟨t, rfl, rfl⟩
    rfl

/-- A loop repeats what its body does. The induction is on the number of steps that reading takes,
which each time around makes smaller. -/
lemma loop (h : Covers effect cs) : Covers (Iterates effect) ('[' :: cs ++ [']']) := by
  refine ⟨h.balanced.loop, ?_⟩
  intro n passed ahead s u hn
  have htext : '[' :: cs ++ [']'] ++ ahead = '[' :: (cs ++ ']' :: ahead) := by simp
  have hpassed : ('[' :: cs ++ [']']).reverse ++ passed = ']' :: (cs.reverse ++ '[' :: passed) := by
    simp
  rw [htext] at hn
  rw [hpassed]
  induction n using Nat.strongRecOn generalizing s with
  | ind n ih =>
    obtain ⟨m, rfl, ⟨hcell, hm⟩ | ⟨c, hcell, hc, hm⟩⟩ := halts_opening h.balanced hn
    · exact ⟨s, .stop hcell, m, Nat.le_succ m, hm⟩
    obtain ⟨t, ht, l, hlm, hl⟩ := h.halts hm
    obtain ⟨k, rfl, ⟨hcell', hk⟩ | ⟨-, -, -, hk⟩⟩ := halts_closing h.balanced hl
    · exact ⟨t, .again hcell hc ht (.stop hcell'), k, by omega, hk⟩
    · obtain ⟨v, hv, j, hjk, hj⟩ := ih k (by omega) hk
      exact ⟨v, .again hcell hc ht hv, j, by omega, hj⟩

end Covers

end CilAssembly.Brainfuck
