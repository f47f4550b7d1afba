import CilAssembly.Proofs.Generation.Slots
import CilAssembly.Proofs.Spelling.Names

/-!
Identifiers read back. A spelled name is the first identifier of any text that goes on with something
else, so names with one spelling are the same. Between quotes exactly the escaped spelling of a name
reads as that name, which the declarations of locals miss: they do not escape.
-/
namespace CilAssembly

namespace Identifier

/-- Reads the identifier at the start of a text, a name in quotes or the longest run of bare
characters. Returns what is left. -/
def lex : List Char → Option (List Char × List Char)
  | '\'' :: rest => takeQuoted rest
  | cs =>
    if (cs.takeWhile isBareChar).isEmpty then none
    else some (cs.takeWhile isBareChar, cs.dropWhile isBareChar)

variable {name rest : List Char}

lemma lex_bare {c : Char} (hc : isBareChar c = true) (cs : List Char) :
    lex (c :: cs) = some (c :: cs.takeWhile isBareChar, cs.dropWhile isBareChar) := by
  have hquote : c ≠ '\'' := by
    rintro rfl
    revert hc
    decide
  simp [lex, hquote, hc]

lemma lex_quoteChars (h : ∀ c ∈ rest.head?, isBareChar c = false) :
    lex (quoteChars name ++ rest) = some (name, rest) := by
  cases hname : isBare name with
  | false =>
    have htext : quoteChars name ++ rest =
        '\'' :: (name.flatMap escapeChar ++ '\'' :: rest) := by
      simp [quoteChars_quoted hname]
    rw [htext]
    exact takeQuoted_escaped name rest
  | true =>
    have hbare := isBareChar_of_isBare hname
    obtain ⟨c, cs, rfl⟩ := List.exists_cons_of_ne_nil (ne_nil_of_isBare hname)
    obtain ⟨hc, hcs⟩ := List.forall_mem_cons.mp hbare
    have hstop : rest.takeWhile isBareChar = [] ∧ rest.dropWhile isBareChar = rest := by
      cases rest with
      | nil => exact ⟨rfl, rfl⟩
      | cons d rest => simp [h d rfl]
    rw [quoteChars_bare hname, List.cons_append, lex_bare hc, List.takeWhile_append_of_pos hcs,
      List.dropWhile_append_of_pos hcs, hstop.1, hstop.2, List.append_nil]

lemma head?_quoteChars (name : List Char) :
    (quoteChars name).head? = some '\'' ↔ isBare name = false := by
  cases hname : isBare name with
  | false => simp [quoteChars_quoted hname]
  | true =>
    rw [quoteChars_bare hname]
    refine iff_of_false ?_ (by decide)
    intro hhead
    exact notMem_of_isBare hname (by decide) (List.mem_of_mem_head? hhead)

lemma toList_quote (name : String) : (quote name).toList = quoteChars name.toList :=
  String.toList_ofList

/-- **Spelled names are self-delimiting.** A reader finds the name and stops where it ends, names with
one spelling are the same, and bare and quoted spellings differ in their first character. -/
theorem quote_reads_back (name : String) (rest : List Char)
    (h : ∀ c ∈ rest.head?, isBareChar c = false) :
    lex ((quote name).toList ++ rest) = some (name.toList, rest) ∧
    (∀ other, quote other = quote name → other = name) ∧
    ∀ other, isBare other.toList ≠ isBare name.toList →
      (quote other).toList.head? ≠ (quote name).toList.head? := by
  refine ⟨by rw [toList_quote, lex_quoteChars h], ?_, ?_⟩
  · intro other hother
    have hchars := congrArg String.toList hother
    rw [toList_quote, toList_quote] at hchars
    exact String.toList_inj.mp (quoteChars_inj hchars)
  · intro other hother hhead
    rw [toList_quote, toList_quote] at hhead
    have hiff := head?_quoteChars other.toList
    rw [hhead, head?_quoteChars] at hiff
    cases hbare : isBare other.toList <;> simp_all

/-- A name with a quote, before the name of a member. -/
theorem quote_reads_back_owner :
    (∀ c ∈ "::Run".toList.head?, isBareChar c = false) ∧
      lex ((quote "it's").toList ++ "::Run".toList) = some ("it's".toList, "::Run".toList) ∧
      (∀ other, quote other = quote "it's" → other = "it's") ∧
      ∀ other, isBare other.toList ≠ isBare "it's".toList →
        (quote other).toList.head? ≠ (quote "it's").toList.head? := by
  have hstop : ∀ c ∈ "::Run".toList.head?, isBareChar c = false := by
    rintro _ ⟨⟩
    rfl
  exact ⟨hstop, quote_reads_back "it's" _ hstop⟩

/-- Between quotes exactly the escaped spelling of a name reads as that name. -/
lemma takeQuoted_eq_some_iff {cs : List Char} :
    takeQuoted cs = some (name, rest) ↔ cs = name.flatMap escapeChar ++ '\'' :: rest := by
  constructor
  · intro h
    fun_induction takeQuoted cs generalizing name with
    | case1 => cases h
    | case2 rest' =>
      cases h
      rfl
    | case3 c cs hspecial ih =>
      obtain ⟨⟨name', rest'⟩, htaken, hsplit⟩ := Option.map_eq_some_iff.mp h
      cases hsplit
      have hescape : escapeChar c = ['\\', c] := if_pos (by simpa using hspecial)
      rw [List.flatMap_cons, hescape, ih htaken]
      rfl
    | case4 c cs hplain => cases h
    | case5 c cs hquote hslash ih =>
      obtain ⟨⟨name', rest'⟩, htaken, hsplit⟩ := Option.map_eq_some_iff.mp h
      cases hsplit
      have hplain : c ≠ '\\' := by
        rintro rfl
        cases cs with
        | nil => cases htaken
        | cons d cs => exact hslash d cs rfl rfl
      have hescape : escapeChar c = [c] := if_neg (by simpa using ⟨hplain, hquote⟩)
      rw [List.flatMap_cons, hescape, ih htaken]
      rfl
  · rintro rfl
    exact takeQuoted_escaped name rest

/-- Every backslash and every quote makes the escaped name one character longer. -/
lemma length_escaped (name : List Char) :
    (name.flatMap escapeChar).length =
      name.length + name.countP (fun c => c == '\\' || c == '\'') := by
  induction name with
  | nil => rfl
  | cons c name ih =>
    rw [List.flatMap_cons, List.length_append, ih, List.length_cons, List.countP_cons]
    cases hc : (c == '\\' || c == '\'') with
    | true =>
      have hescape : escapeChar c = ['\\', c] := if_pos hc
      simp [hescape]
      omega
    | false =>
      have hescape : escapeChar c = [c] := if_neg (by simp [hc])
      simp [hescape]
      omega

lemma escaped_eq_self_iff (name : List Char) :
    name.flatMap escapeChar = name ↔ '\\' ∉ name ∧ '\'' ∉ name := by
  constructor
  · intro h
    have hlength := length_escaped name
    rw [h] at hlength
    have hnone : name.countP (fun c => c == '\\' || c == '\'') = 0 := by omega
    rw [List.countP_eq_zero] at hnone
    exact ⟨fun hmem => hnone _ hmem rfl, fun hmem => hnone _ hmem rfl⟩
  · rintro ⟨hslash, hquote⟩
    have hplain : ∀ c ∈ name, escapeChar c = [c] := by
      intro c hc
      refine if_neg ?_
      simp only [Bool.or_eq_true, beq_iff_eq]
      rintro (rfl | rfl)
      · exact hslash hc
      · exact hquote hc
    rw [List.flatMap_congr hplain, List.flatMap_singleton']

/-- A token is a quoted identifier, and undoing its escapes gives a name. -/
def IsQuoted (token name : List Char) : Prop :=
  ∃ body, token = '\'' :: body ∧ takeQuoted body = some (name, [])

lemma isQuoted_iff {token name : List Char} :
    IsQuoted token name ↔ token = '\'' :: name.flatMap escapeChar ++ ['\''] := by
  constructor
  · rintro ⟨body, rfl, htaken⟩
    rw [takeQuoted_eq_some_iff.mp htaken]
    rfl
  · rintro rfl
    exact ⟨_, rfl, takeQuoted_escaped name []⟩

/-- A name that is put between quotes as it is. -/
lemma isQuoted_self_iff (name : List Char) :
    IsQuoted ('\'' :: name ++ ['\'']) name ↔ '\\' ∉ name ∧ '\'' ∉ name := by
  rw [isQuoted_iff, List.append_left_inj, List.cons.injEq, eq_self, true_and, ← escaped_eq_self_iff,
    eq_comm]

end Identifier

open Identifier

lemma localDeclaration_some (type : CilType) (name : String) :
    localDeclaration type (some name) =
      "\t.locals init\t(" ++ type.render ++ " " ++ ("'" ++ name ++ "'") ++ ")" := by
  have hname : " '" ++ name ++ "'" = " " ++ ("'" ++ name ++ "'") := by
    rw [← String.toList_inj]
    simp only [String.toList_append, List.append_assoc]
    rfl
  calc
    localDeclaration type (some name) =
        "\t.locals init\t(" ++ type.render ++ (" '" ++ name ++ "'") ++ ")" := rfl
    _ = "\t.locals init\t(" ++ type.render ++ (" " ++ ("'" ++ name ++ "'")) ++ ")" :=
      congrArg (fun token => "\t.locals init\t(" ++ type.render ++ token ++ ")") hname
    _ = _ := by simp only [String.append_assoc]

/-- The declaration of a local quotes its name without escaping it. Its name token is a quoted
identifier of that name exactly where the name has neither a backslash nor a quote. -/
theorem localName_quoted_iff {c : Context} {frame : Frame} (hframe : c.frame = some frame)
    (hroom : frame.locals.size < maxSlots) (type : CilType) (name : String) :
    ∃ slot d token, Gen.allocLocal type (some name) c = .ok slot d ∧
      d.listing.lines.back? =
        some (.directive ("\t.locals init\t(" ++ type.render ++ " " ++ token ++ ")")) ∧
      (IsQuoted token.toList name.toList ↔ '\\' ∉ name.toList ∧ '\'' ∉ name.toList) := by
  refine ⟨_, _, "'" ++ name ++ "'", Gen.allocLocal_room hframe type (some name) hroom, ?_, ?_⟩
  · simp [Context.withLocal, Context.appended, Listing.append, localDeclaration_some]
  · rw [String.toList_append, String.toList_append]
    exact isQuoted_self_iff name.toList

/-- A name that needs no escapes. -/
theorem localName_quoted_iff_tape :
    ∃ history c frame, Run AnyOperation (.create {}) history c ∧ c.frame = some frame ∧
      frame.locals.size < maxSlots ∧
      ∃ slot d token, Gen.allocLocal .int32 (some "tape") c = .ok slot d ∧
        d.listing.lines.back? =
          some (.directive ("\t.locals init\t(" ++ CilType.int32.render ++ " " ++ token ++ ")")) ∧
        (IsQuoted token.toList "tape".toList ↔ '\\' ∉ "tape".toList ∧ '\'' ∉ "tape".toList) := by
  have hreplay : replay AnyOperation {} (.create {}) openMain = some (_, _) := rfl
  exact ⟨_, _, _, Run.start.replay hreplay, rfl, by decide, localName_quoted_iff rfl (by decide) _ _⟩

/-- A quote in the name ends the token too early: it is no quoted identifier at all. -/
theorem localName_apostrophe :
    ∃ history c slot d, Run AnyOperation (.create {}) history c ∧
      Gen.allocLocal .int32 (some "it's") c = .ok slot d ∧
      d.listing.lines.back? = some (.directive "\t.locals init\t(int32 'it's')") ∧
      ∀ name, ¬IsQuoted "'it's'".toList name := by
  have hreplay : replay AnyOperation {} (.create {}) openMain = some (_, _) := rfl
  refine ⟨_, _, _, _, Run.start.replay hreplay, rfl, ?_, ?_⟩
  · rfl
  · rintro name ⟨_, ⟨⟩, htaken⟩
    cases htaken

end CilAssembly
