import CilAssembly.ClassName
import Mathlib.Data.List.Infix
import Mathlib.Tactic.Common

/-!
Names. Quotes and brackets protect what is between them, so a separator outside of them splits a
spelling in one way only. Class names of the same spelling are the same, up to the place where a bare
dotted name is divided into namespace and name.
-/
namespace CilAssembly

namespace Spelling

section Splitting
variable {d : Char} {cs ds xs ys : List Char}

/-- Where a text is split twice at the same character, one of the splits comes first. -/
lemma split_cases (h : cs ++ d :: xs = ds ++ d :: ys) :
    cs = ds ∧ xs = ys ∨ (∃ more, ds = cs ++ d :: more ∧ xs = more ++ d :: ys) ∨
      ∃ more, cs = ds ++ d :: more ∧ ys = more ++ d :: xs := by
  obtain ⟨more, hmore, hrest⟩ | ⟨more, hmore, hrest⟩ := List.append_eq_append_iff.mp h
  · cases more with
    | nil => exact .inl ⟨by simpa using hmore.symm, (List.cons.inj hrest).2⟩
    | cons c more =>
      obtain ⟨rfl, hxs⟩ := List.cons.inj hrest
      exact .inr (.inl ⟨more, hmore, hxs⟩)
  · cases more with
    | nil => exact .inl ⟨by simpa using hmore, (List.cons.inj hrest).2.symm⟩
    | cons c more =>
      obtain ⟨rfl, hys⟩ := List.cons.inj hrest
      exact .inr (.inr ⟨more, hmore, hys⟩)

lemma split_at_first (h : cs ++ d :: xs = ds ++ d :: ys) (hcs : d ∉ cs) (hds : d ∉ ds) :
    cs = ds ∧ xs = ys := by
  obtain hsame | ⟨more, rfl, -⟩ | ⟨more, rfl, -⟩ := split_cases h
  · exact hsame
  · exact absurd (by simp) hds
  · exact absurd (by simp) hcs

lemma split_at_last (h : cs ++ d :: xs = ds ++ d :: ys) (hxs : d ∉ xs) (hys : d ∉ ys) :
    cs = ds ∧ xs = ys := by
  obtain hsame | ⟨more, -, rfl⟩ | ⟨more, -, rfl⟩ := split_cases h
  · exact hsame
  · exact absurd (by simp) hxs
  · exact absurd (by simp) hys

end Splitting

/-- Where a reader of assembly text is: outside of quotes and brackets, between quotes, behind a
backslash between quotes, or between brackets. -/
inductive Mode
  | plain | quoted | escaped | bracketed
  deriving DecidableEq

namespace Mode

def next : Mode → Char → Mode
  | .plain, c => if c = '\'' then .quoted else if c = '[' then .bracketed else .plain
  | .quoted, c => if c = '\\' then .escaped else if c = '\'' then .plain else .quoted
  | .escaped, _ => .quoted
  | .bracketed, c => if c = ']' then .plain else .bracketed

def after (mode : Mode) (cs : List Char) : Mode :=
  cs.foldl next mode

@[simp] lemma after_nil (mode : Mode) : mode.after [] = mode := rfl

@[simp] lemma after_cons (mode : Mode) (c : Char) (cs : List Char) :
    mode.after (c :: cs) = (mode.next c).after cs := rfl

@[simp] lemma after_append (mode : Mode) (cs ds : List Char) :
    mode.after (cs ++ ds) = (mode.after cs).after ds :=
  List.foldl_append

/-- From a mode on, a text stays between quotes or brackets. -/
def Protects (mode : Mode) (cs : List Char) : Prop :=
  ∀ before, before <+: cs → mode.after before ≠ .plain

lemma protects_nil {mode : Mode} (h : mode ≠ .plain) : mode.Protects [] := by
  intro before hbefore
  rw [List.prefix_nil.mp hbefore]
  exact h

lemma Protects.cons {mode : Mode} {c : Char} {cs : List Char} (h : mode ≠ .plain)
    (hcs : (mode.next c).Protects cs) : mode.Protects (c :: cs) := by
  intro before hbefore
  obtain rfl | ⟨inner, rfl, hinner⟩ := List.prefix_cons_iff.mp hbefore
  · exact h
  · exact hcs inner hinner

/-- Between brackets only the closing bracket counts. -/
lemma bracketed_of_notMem {cs : List Char} (h : ']' ∉ cs) :
    bracketed.Protects cs ∧ bracketed.after cs = .bracketed := by
  induction cs with
  | nil => exact ⟨protects_nil (by decide), rfl⟩
  | cons c cs ih =>
    obtain ⟨hc, hcs⟩ : ']' ≠ c ∧ ']' ∉ cs := by simpa using h
    have hnext : bracketed.next c = .bracketed := if_neg hc.symm
    obtain ⟨hprotects, hafter⟩ := ih hcs
    exact ⟨.cons (by decide) (by rwa [hnext]), by rw [after_cons, hnext, hafter]⟩

end Mode

/-- A text opens no quote and no bracket that it does not close, and the separator stands only inside
of them. -/
structure Closed (d : Char) (cs : List Char) : Prop where
  plain : Mode.plain.after cs = .plain
  hidden : ∀ before after, cs = before ++ d :: after → Mode.plain.after before ≠ .plain

namespace Closed
variable {d : Char} {cs ds xs ys : List Char}

lemma nil : Closed d [] :=
  ⟨rfl, by simp⟩

lemma append (hcs : Closed d cs) (hds : Closed d ds) : Closed d (cs ++ ds) := by
  refine ⟨by rw [Mode.after_append, hcs.plain, hds.plain], ?_⟩
  intro before after h
  obtain ⟨more, rfl, hrest⟩ | ⟨more, rfl, hrest⟩ := List.append_eq_append_iff.mp h
  · rw [Mode.after_append, hcs.plain]
    exact hds.hidden more after hrest
  · cases more with
    | nil =>
      -- the separator would be the first character of the second part
      exact absurd rfl (hds.hidden [] after hrest.symm)
    | cons c more =>
      obtain ⟨rfl, -⟩ := List.cons.inj hrest
      exact hcs.hidden before more rfl

lemma singleton {c : Char} (hc : c ≠ d) (hplain : Mode.plain.next c = .plain) : Closed d [c] := by
  refine ⟨hplain, ?_⟩
  intro before after h
  cases before with
  | nil => exact absurd (List.cons.inj h).1 hc
  | cons _ before => simp at h

lemma of_all (h : cs.all (fun c => c ≠ d ∧ Mode.plain.next c = .plain) = true) : Closed d cs := by
  induction cs with
  | nil => exact nil
  | cons c cs ih =>
    rw [List.all_cons, Bool.and_eq_true, decide_eq_true_eq] at h
    exact (singleton h.1.1 h.1.2).append (ih h.2)

/-- What stands between quotes or brackets. -/
lemma group {opening closing : Char} (hd : opening ≠ d)
    (hprotects : (Mode.plain.next opening).Protects cs)
    (hclosing : ((Mode.plain.next opening).after cs).next closing = .plain) :
    Closed d (opening :: cs ++ [closing]) := by
  refine ⟨by simpa using hclosing, ?_⟩
  intro before after h
  cases before with
  | nil => exact absurd (List.cons.inj h).1 hd
  | cons c before =>
    obtain ⟨rfl, hrest⟩ := List.cons.inj h
    obtain hwhole | hbefore := List.prefix_concat_iff.mp ⟨d :: after, hrest.symm⟩
    · simp [hwhole] at hrest
    · exact hprotects before hbefore

lemma brackets (hd : '[' ≠ d) (h : ']' ∉ cs) : Closed d ('[' :: cs ++ [']']) := by
  obtain ⟨hprotects, hafter⟩ := Mode.bracketed_of_notMem h
  exact group hd hprotects (congrArg (Mode.next · ']') hafter)

/-- A text is split in one way at the first separator outside of quotes and brackets. -/
lemma split_first (h : cs ++ d :: xs = ds ++ d :: ys) (hcs : Closed d cs) (hds : Closed d ds) :
    cs = ds ∧ xs = ys := by
  obtain hsame | ⟨more, rfl, -⟩ | ⟨more, rfl, -⟩ := split_cases h
  · exact hsame
  · exact absurd hcs.plain (hds.hidden cs more rfl)
  · exact absurd hds.plain (hcs.hidden ds more rfl)

/-- A text is split in one way at the last separator outside of quotes and brackets. -/
lemma split_last (h : cs ++ d :: xs = ds ++ d :: ys) (hd : Mode.plain.next d = .plain)
    (hcs : Mode.plain.after cs = .plain) (hds : Mode.plain.after ds = .plain) (hxs : Closed d xs)
    (hys : Closed d ys) : cs = ds ∧ xs = ys := by
  obtain hsame | ⟨more, rfl, rfl⟩ | ⟨more, rfl, rfl⟩ := split_cases h
  · exact hsame
  · rw [Mode.after_append, hcs, Mode.after_cons, hd] at hds
    exact absurd hds (hxs.hidden more ys rfl)
  · rw [Mode.after_append, hds, Mode.after_cons, hd] at hcs
    exact absurd hcs (hys.hidden more xs rfl)

end Closed

end Spelling

namespace Identifier
open Spelling

variable {name other : List Char}

lemma isBareChar_of_isBare (h : isBare name = true) : ∀ c ∈ name, isBareChar c = true := by
  simp only [isBare, Bool.or_eq_true, Bool.and_eq_true, beq_iff_eq] at h
  refine List.all_eq_true.mp ?_
  obtain (rfl | rfl) | ⟨-, hall⟩ := h
  · decide
  · decide
  · exact hall

lemma ne_nil_of_isBare (h : isBare name = true) : name ≠ [] := by
  rintro rfl
  revert h
  decide

/-- No bare name has a character that means something else in assembly text. -/
lemma notMem_of_isBare {c : Char} (h : isBare name = true) (hc : isBareChar c = false) :
    c ∉ name := by
  intro hmem
  rw [isBareChar_of_isBare h c hmem] at hc
  cases hc

lemma quoteChars_bare (h : isBare name = true) : quoteChars name = name :=
  if_pos h

lemma quoteChars_quoted (h : isBare name = false) :
    quoteChars name = '\'' :: name.flatMap escapeChar ++ ['\''] := by
  simp [quoteChars, h]

lemma escapeChar_cases (c : Char) :
    escapeChar c = ['\\', c] ∧ (c = '\\' ∨ c = '\'') ∨
      escapeChar c = [c] ∧ c ≠ '\\' ∧ c ≠ '\'' := by
  by_cases hc : c == '\\' || c == '\''
  · exact .inl ⟨if_pos hc, by simpa using hc⟩
  · exact .inr ⟨if_neg hc, by simpa using hc⟩

/-- Between quotes an escaped character neither ends the quote nor opens an escape. -/
lemma protects_escapeChar (c : Char) {cs : List Char} (h : Mode.quoted.Protects cs) :
    Mode.quoted.Protects (escapeChar c ++ cs) := by
  obtain ⟨hc, -⟩ | ⟨hc, hslash, hquote⟩ := escapeChar_cases c
  · rw [hc]
    exact .cons (by decide) (.cons (by decide) h)
  · rw [hc]
    refine .cons (by decide) ?_
    rwa [Mode.next, if_neg hslash, if_neg hquote]

lemma after_escapeChar (c : Char) : Mode.quoted.after (escapeChar c) = .quoted := by
  obtain ⟨hc, -⟩ | ⟨hc, hslash, hquote⟩ := escapeChar_cases c
  · rw [hc]
    rfl
  · rw [hc, Mode.after_cons, Mode.next, if_neg hslash, if_neg hquote, Mode.after_nil]

lemma protects_escaped (name : List Char) : Mode.quoted.Protects (name.flatMap escapeChar) := by
  induction name with
  | nil => exact Mode.protects_nil (by decide)
  | cons c name ih => exact protects_escapeChar c ih

lemma after_escaped (name : List Char) : Mode.quoted.after (name.flatMap escapeChar) = .quoted := by
  induction name with
  | nil => rfl
  | cons c name ih => rw [List.flatMap_cons, Mode.after_append, after_escapeChar, ih]

/-- Reads a name up to the quote that ends it. A backslash stands before a backslash or a quote. -/
def takeQuoted : List Char → Option (List Char × List Char)
  | [] => none
  | '\'' :: rest => some ([], rest)
  | '\\' :: c :: rest =>
    if c = '\\' ∨ c = '\'' then (takeQuoted rest).map fun (name, rest) => (c :: name, rest)
    else none
  | c :: rest => (takeQuoted rest).map fun (name, rest) => (c :: name, rest)

lemma takeQuoted_escaped (name rest : List Char) :
    takeQuoted (name.flatMap escapeChar ++ '\'' :: rest) = some (name, rest) := by
  induction name with
  | nil => rfl
  | cons c name ih =>
    obtain ⟨hc, hspecial⟩ | ⟨hc, hslash, hquote⟩ := escapeChar_cases c
    · simp [hc, takeQuoted, hspecial, ih]
    · simp [hc, takeQuoted, hslash, ih]

/-- A quoted name ends where its quote ends, whatever comes next. -/
lemma escaped_inj {xs ys : List Char}
    (h : name.flatMap escapeChar ++ '\'' :: xs = other.flatMap escapeChar ++ '\'' :: ys) :
    name = other ∧ xs = ys := by
  have hread := takeQuoted_escaped name xs
  rw [h, takeQuoted_escaped] at hread
  obtain ⟨rfl, rfl⟩ := Prod.mk.inj (Option.some.inj hread)
  exact ⟨rfl, rfl⟩

section
variable {d : Char} (hd : d = ',' ∨ d = '/')
include hd

lemma closed_bare (h : ∀ c ∈ name, isBareChar c = true) : Closed d name := by
  refine .of_all (List.all_eq_true.mpr fun c hc => decide_eq_true ?_)
  have hother {c' : Char} (hc' : isBareChar c' = false) : c ≠ c' := by
    rintro rfl
    rw [h c hc] at hc'
    cases hc'
  refine ⟨?_, by rw [Mode.next, if_neg (hother (by decide)), if_neg (hother (by decide))]⟩
  obtain rfl | rfl := hd <;> exact hother (by decide)

lemma closed_quoteChars (name : List Char) : Closed d (quoteChars name) := by
  cases h : isBare name with
  | true =>
    rw [quoteChars_bare h]
    exact closed_bare hd (isBareChar_of_isBare h)
  | false =>
    rw [quoteChars_quoted h]
    refine .group ?_ (protects_escaped name) ?_
    · obtain rfl | rfl := hd <;> decide
    · exact congrArg (Mode.next · '\'') (after_escaped name)

end

lemma quoteChars_eq_cons (name : List Char) :
    ∃ c rest, quoteChars name = c :: rest ∧ (c = '\'' ∨ isBareChar c = true) := by
  cases h : isBare name with
  | true =>
    obtain ⟨c, rest, rfl⟩ := List.exists_cons_of_ne_nil (ne_nil_of_isBare h)
    exact ⟨c, rest, quoteChars_bare h, .inr (isBareChar_of_isBare h c List.mem_cons_self)⟩
  | false => exact ⟨_, _, quoteChars_quoted h, .inl rfl⟩

lemma quoteChars_eq_concat (name : List Char) :
    ∃ front c, quoteChars name = front ++ [c] ∧ (c = '\'' ∨ isBareChar c = true) := by
  cases h : isBare name with
  | true =>
    obtain ⟨front, c, rfl⟩ := (List.eq_nil_or_concat' name).resolve_left (ne_nil_of_isBare h)
    exact ⟨front, c, quoteChars_bare h, .inr (isBareChar_of_isBare h c (by simp))⟩
  | false => exact ⟨_, _, quoteChars_quoted h, .inl rfl⟩

lemma quoteChars_inj (h : quoteChars name = quoteChars other) : name = other := by
  have hquote {name other : List Char} (hname : isBare name = true) (hother : isBare other = false) :
      quoteChars name ≠ quoteChars other := by
    intro h
    rw [quoteChars_bare hname, quoteChars_quoted hother] at h
    exact notMem_of_isBare hname (by decide) (h ▸ List.mem_cons_self : '\'' ∈ name)
  cases hname : isBare name with
  | true =>
    cases hother : isBare other with
    | true => rwa [quoteChars_bare hname, quoteChars_bare hother] at h
    | false => exact absurd h (hquote hname hother)
  | false =>
    cases hother : isBare other with
    | true => exact absurd h.symm (hquote hother hname)
    | false =>
      rw [quoteChars_quoted hname, quoteChars_quoted hother] at h
      exact (escaped_inj (List.cons.inj h).2).1

end Identifier

namespace ClassName
open Identifier Spelling

/-- The class names that the constructors of class names give. An assembly has no closing bracket in
its name. -/
inductive Built : ClassName → Prop
  | ofProgram (space : Option String) (name : String) : Built (.ofProgram space name)
  | imported {scope : String} (h : ']' ∉ scope.toList) (space name : String) :
      Built (.imported scope space name)
  | system (name : String) : Built (.system name)
  | nested {enclosing : ClassName} (h : Built enclosing) (name : String) :
      Built (enclosing.nested name)

/-- Every part of a class name stands bare. -/
def PartsBare (space : Option String) (name : String) : Prop :=
  (∀ s ∈ space, isBare s.toList = true) ∧ isBare name.toList = true

/-- The full name of a class, its namespace included. -/
def dotted : Option String → String → String
  | none, name => name
  | some space, name => space ++ "." ++ name

/-- Class names are the same up to the dot that divides a bare full name into namespace and name. -/
inductive Alike : ClassName → ClassName → Prop
  | refl (c : ClassName) : Alike c c
  | dotted {scope space space' : Option String} {name name' : String}
      (bare : PartsBare space name) (bare' : PartsBare space' name')
      (same : dotted space name = dotted space' name') :
      Alike (.outer scope space name) (.outer scope space' name')
  | nested {c d : ClassName} (h : Alike c d) (name : String) : Alike (c.nested name) (d.nested name)

def scopeChars : Option String → List Char
  | none => []
  | some scope => '[' :: scope.toList ++ [']']

def spaceChars : Option String → List Char
  | none => []
  | some space => quoteChars space.toList ++ ['.']

lemma toList_render_outer (scope space : Option String) (name : String) :
    (outer scope space name).render.toList =
      scopeChars scope ++ (spaceChars space ++ quoteChars name.toList) := by
  cases scope <;> cases space <;> simp [render, scopeChars, spaceChars, quote]

lemma toList_render_inner (enclosing : ClassName) (scope space : Option String) (name : String) :
    (inner enclosing scope space name).render.toList =
      enclosing.render.toList ++ '/' :: quoteChars name.toList := by
  simp [render, quote]

lemma Built.scope {scope space : Option String} {name : String} (h : Built (.outer scope space name)) :
    ∀ s ∈ scope, ']' ∉ s.toList := by
  cases h with
  | ofProgram => simp
  | imported h => simpa using h
  | system => simp; decide

lemma Built.inner {enclosing : ClassName} {scope space : Option String} {name : String}
    (h : Built (.inner enclosing scope space name)) :
    scope = none ∧ space = none ∧ Built enclosing := by
  cases h with
  | nested h => exact ⟨rfl, rfl, h⟩

section
variable {d : Char} (hd : d = ',' ∨ d = '/')
include hd

lemma closed_outer {scope space : Option String} {name : String}
    (h : Built (.outer scope space name)) : Closed d (outer scope space name).render.toList := by
  have hscope : Closed d (scopeChars scope) := by
    cases scope with
    | none => exact .nil
    | some scope => exact .brackets (by obtain rfl | rfl := hd <;> decide) (h.scope scope rfl)
  have hspace : Closed d (spaceChars space) := by
    cases space with
    | none => exact .nil
    | some space =>
      exact (closed_quoteChars hd _).append
        (.singleton (by obtain rfl | rfl := hd <;> decide) (by decide))
  rw [toList_render_outer]
  exact hscope.append (hspace.append (closed_quoteChars hd _))

end

lemma closed_render {c : ClassName} (h : c.Built) : Closed ',' c.render.toList := by
  induction c with
  | outer scope space name => exact closed_outer (.inl rfl) h
  | inner enclosing scope space name ih =>
    obtain ⟨-, -, henclosing⟩ := h.inner
    have hslash : Closed ',' ['/'] := .singleton (by decide) rfl
    rw [toList_render_inner, List.append_cons]
    exact ((ih henclosing).append hslash).append (closed_quoteChars (.inl rfl) _)

lemma render_eq_concat (c : ClassName) :
    ∃ front last, c.render.toList = front ++ [last] ∧ (last = '\'' ∨ isBareChar last = true) := by
  cases c with
  | outer scope space name =>
    obtain ⟨front, last, hname, hlast⟩ := quoteChars_eq_concat name.toList
    exact ⟨_, last, by rw [toList_render_outer, hname, ← List.append_assoc, ← List.append_assoc],
      hlast⟩
  | inner enclosing scope space name =>
    obtain ⟨front, last, hname, hlast⟩ := quoteChars_eq_concat name.toList
    exact ⟨_, last, by rw [toList_render_inner, hname, ← List.cons_append, ← List.append_assoc],
      hlast⟩

/-- A class name without its assembly does not start like one with it. -/
lemma parts_ne_bracket (space : Option String) (name : String) (rest : List Char) :
    spaceChars space ++ quoteChars name.toList ≠ '[' :: rest := by
  have hquote (name xs : List Char) : quoteChars name ++ xs ≠ '[' :: rest := by
    obtain ⟨c, tail, hname, hc⟩ := quoteChars_eq_cons name
    rw [hname]
    intro h
    obtain ⟨rfl, -⟩ := List.cons.inj h
    revert hc
    decide
  cases space with
  | none => simpa [spaceChars] using hquote name.toList []
  | some space =>
    rw [spaceChars, List.append_assoc]
    exact hquote _ _

lemma scope_inj {scope scope' : Option String} {xs ys : List Char}
    (h : scopeChars scope ++ xs = scopeChars scope' ++ ys) (hscope : ∀ s ∈ scope, ']' ∉ s.toList)
    (hscope' : ∀ s ∈ scope', ']' ∉ s.toList) (hxs : ∀ rest, xs ≠ '[' :: rest)
    (hys : ∀ rest, ys ≠ '[' :: rest) : scope = scope' ∧ xs = ys := by
  cases scope with
  | none =>
    cases scope' with
    | none => exact ⟨rfl, h⟩
    | some scope' => exact absurd h (hxs _)
  | some scope =>
    cases scope' with
    | none => exact absurd h.symm (hys _)
    | some scope' =>
      simp only [scopeChars, List.cons_append, List.append_assoc, List.cons.injEq, true_and,
        List.nil_append] at h
      obtain ⟨hsame, hrest⟩ := split_at_first h (hscope _ rfl) (hscope' _ rfl)
      exact ⟨congrArg some (String.toList_inj.mp hsame), hrest⟩

/-- How a class name with a quoted part is spelled: what is bare before the first quote, the name in
quotes and what comes after it. -/
inductive QuotedParts : Option String → String → List Char → List Char → List Char → Prop
  | alone (name : String) : QuotedParts none name [] name.toList []
  | space (space name : String) :
      QuotedParts (some space) name [] space.toList ('.' :: quoteChars name.toList)
  | name {space : String} (h : isBare space.toList = true) (name : String) :
      QuotedParts (some space) name (space.toList ++ ['.']) name.toList []

namespace QuotedParts
variable {space space' : Option String} {name name' : String} 
  {lead lead' quoted quoted' rest rest' : List Char}

lemma notMem_lead (h : QuotedParts space name lead quoted rest) : '\'' ∉ lead := by
  cases h with
  | alone | space => simp
  | name h => simpa using notMem_of_isBare h (by decide)

/-- The spelling determines the parts. -/
lemma unique (h : QuotedParts space name lead quoted rest)
    (h' : QuotedParts space' name' lead' quoted' rest') (hlead : lead = lead')
    (hquoted : quoted = quoted') (hrest : rest = rest') : space = space' ∧ name = name' := by
  cases h with
  | alone =>
    cases h' with
    | alone => exact ⟨rfl, String.toList_inj.mp hquoted⟩
    | space => cases hrest
    | name => simp at hlead
  | space =>
    cases h' with
    | alone => cases hrest
    | space =>
      have hname := quoteChars_inj (List.cons.inj hrest).2
      exact ⟨congrArg some (String.toList_inj.mp hquoted), String.toList_inj.mp hname⟩
    | name => cases hrest
  | name =>
    cases h' with
    | alone => simp at hlead
    | space => cases hrest
    | name =>
      have hspace := List.append_cancel_right hlead
      exact ⟨congrArg some (String.toList_inj.mp hspace), String.toList_inj.mp hquoted⟩

end QuotedParts

lemma exists_quotedParts {space : Option String} {name : String} (h : ¬PartsBare space name) :
    ∃ lead quoted rest, QuotedParts space name lead quoted rest ∧
      spaceChars space ++ quoteChars name.toList =
        lead ++ '\'' :: (quoted.flatMap escapeChar ++ '\'' :: rest) := by
  cases space with
  | none =>
    have hname : isBare name.toList = false := by simpa [PartsBare] using h
    exact ⟨_, _, _, .alone name, by simp [spaceChars, quoteChars_quoted hname]⟩
  | some space =>
    cases hspace : isBare space.toList with
    | false => exact ⟨_, _, _, .space space name, by simp [spaceChars, quoteChars_quoted hspace]⟩
    | true =>
      have hname : isBare name.toList = false := by simpa [PartsBare, hspace] using h
      exact ⟨_, _, _, .name hspace name, by
        simp [spaceChars, quoteChars_bare hspace, quoteChars_quoted hname]⟩

lemma parts_of_bare {space : Option String} {name : String} (h : PartsBare space name) :
    spaceChars space ++ quoteChars name.toList = (dotted space name).toList := by
  obtain ⟨hspace, hname⟩ := h
  cases space with
  | none => simp [spaceChars, dotted, quoteChars_bare hname]
  | some space => simp [spaceChars, dotted, quoteChars_bare hname, quoteChars_bare (hspace _ rfl)]

lemma notMem_dotted {space : Option String} {name : String} (h : PartsBare space name) :
    '\'' ∉ (dotted space name).toList := by
  obtain ⟨hspace, hname⟩ := h
  have hname' : '\'' ∉ name.toList := notMem_of_isBare hname (by decide)
  cases space with
  | none => exact hname'
  | some space =>
    have hspace' : '\'' ∉ space.toList := notMem_of_isBare (hspace _ rfl) (by decide)
    simp [dotted, hname', hspace']

/-- Class names without their assembly are spelled alike only if they are the same or bare. -/
lemma parts_inj {space space' : Option String} {name name' : String}
    (h : spaceChars space ++ quoteChars name.toList = spaceChars space' ++ quoteChars name'.toList) :
    space = space' ∧ name = name' ∨ PartsBare space name ∧ PartsBare space' name' ∧
      dotted space name = dotted space' name' := by
  have hquote {space space' : Option String} {name name' : String} (hbare : PartsBare space name)
      (hquoted : ¬PartsBare space' name') : spaceChars space ++ quoteChars name.toList ≠
        spaceChars space' ++ quoteChars name'.toList := by
    obtain ⟨lead, quoted, rest, -, hparts⟩ := exists_quotedParts hquoted
    have hmem := notMem_dotted hbare
    rw [parts_of_bare hbare, hparts]
    intro h
    simp [h] at hmem
  by_cases hbare : PartsBare space name
  · by_cases hbare' : PartsBare space' name'
    · rw [parts_of_bare hbare, parts_of_bare hbare'] at h
      exact .inr ⟨hbare, hbare', String.toList_inj.mp h⟩
    · exact absurd h (hquote hbare hbare')
  · by_cases hbare' : PartsBare space' name'
    · exact absurd h.symm (hquote hbare' hbare)
    · obtain ⟨lead, quoted, rest, hparts, hsplit⟩ := exists_quotedParts hbare
      obtain ⟨lead', quoted', rest', hparts', hsplit'⟩ := exists_quotedParts hbare'
      rw [hsplit, hsplit'] at h
      obtain ⟨hlead, hquoted⟩ := split_at_first h hparts.notMem_lead hparts'.notMem_lead
      obtain ⟨hname, hrest⟩ := escaped_inj hquoted
      exact .inl (hparts.unique hparts' hlead hname hrest)

lemma alike_of_render {c d : ClassName} (hc : c.Built) (hd : d.Built)
    (h : c.render.toList = d.render.toList) : Alike c d := by
  induction c generalizing d with
  | outer scope space name =>
    cases d with
    | outer scope' space' name' =>
      rw [toList_render_outer, toList_render_outer] at h
      obtain ⟨rfl, hparts⟩ := scope_inj h hc.scope hd.scope (parts_ne_bracket _ _)
        (parts_ne_bracket _ _)
      obtain ⟨rfl, rfl⟩ | ⟨hbare, hbare', hsame⟩ := parts_inj hparts
      · exact .refl _
      · exact .dotted hbare hbare' hsame
    | inner enclosing scope' space' name' =>
      rw [toList_render_inner] at h
      have hslash := (closed_outer (.inr rfl) hc).hidden _ _ h
      exact absurd (closed_render hd.inner.2.2).plain hslash
  | inner enclosing scope space name ih =>
    obtain ⟨rfl, rfl, henclosing⟩ := hc.inner
    rw [toList_render_inner] at h
    cases d with
    | outer scope' space' name' =>
      have hslash := (closed_outer (.inr rfl) hd).hidden _ _ h.symm
      exact absurd (closed_render henclosing).plain hslash
    | inner enclosing' scope' space' name' =>
      obtain ⟨rfl, rfl, henclosing'⟩ := hd.inner
      rw [toList_render_inner] at h
      obtain ⟨hsame, hname⟩ := Closed.split_last h rfl (closed_render henclosing).plain
        (closed_render henclosing').plain (closed_quoteChars (.inr rfl) _)
        (closed_quoteChars (.inr rfl) _)
      obtain rfl := String.toList_inj.mp (quoteChars_inj hname)
      exact .nested (ih henclosing henclosing' hsame) name

lemma Alike.render {c d : ClassName} (h : Alike c d) : c.render = d.render := by
  induction h with
  | refl => rfl
  | dotted bare bare' same =>
    rw [← String.toList_inj, toList_render_outer, toList_render_outer, parts_of_bare bare,
      parts_of_bare bare', same]
  | nested h name ih => simp only [ClassName.nested, ClassName.render, ih]

/-- Class names of the same spelling are alike. -/
theorem render_eq_iff {c d : ClassName} (hc : c.Built) (hd : d.Built) :
    c.render = d.render ↔ Alike c d :=
  ⟨fun h => alike_of_render hc hd (congrArg String.toList h), Alike.render⟩

end ClassName

end CilAssembly
