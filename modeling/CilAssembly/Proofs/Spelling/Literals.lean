import CilAssembly.Instruction
import Mathlib.Tactic.Common

/-!
String literals read back. A reader that undoes the escapes of a literal from left to right finds the
bytes of its string and stops at the closing quote, whatever the string is.
-/
namespace CilAssembly.StringLiteral

def IsPrintable (c : Char) : Prop :=
  0x20 ≤ c.toNat ∧ c.toNat ≤ 0x7e

instance : DecidablePred IsPrintable :=
  fun c => inferInstanceAs (Decidable (0x20 ≤ c.toNat ∧ c.toNat ≤ 0x7e))

def isOctal (c : Char) : Bool :=
  '0' ≤ c && c ≤ '7'

/-- Puts bytes in front of those that were read. -/
def onto (front : List UInt8) : Option (List UInt8 × List Char) → Option (List UInt8 × List Char) :=
  Option.map fun (bytes, rest) => (front ++ bytes, rest)

/-- Reads the bytes that a text spells, up to a quote or to its end. Returns what is left. A backslash
stands before a quote, a backslash or the three octal digits of a byte. -/
def readBytes : List Char → Option (List UInt8 × List Char)
  | [] => some ([], [])
  | '"' :: rest => some ([], '"' :: rest)
  | '\\' :: '"' :: rest => onto [0x22] (readBytes rest)
  | '\\' :: '\\' :: rest => onto [0x5c] (readBytes rest)
  | '\\' :: x :: y :: z :: rest =>
    let value := Nat.ofDigitChars 8 [x, y, z] 0
    if [x, y, z].all isOctal && value < 0x100 then onto [UInt8.ofNat value] (readBytes rest)
    else none
  | '\\' :: _ => none
  | c :: rest => onto (String.utf8EncodeChar c) (readBytes rest)

/-- How a byte may be spelled: after a backslash, as itself or by its octal digits. -/
inductive Spells (byte : UInt8) : List Char → Prop
  | quote (h : byte = 0x22) : Spells byte ['\\', '"']
  | backslash (h : byte = 0x5c) : Spells byte ['\\', '\\']
  | plain {c : Char} (unquoted : c ≠ '"' ∧ c ≠ '\\') (printable : IsPrintable c)
      (encoded : String.utf8EncodeChar c = [byte]) : Spells byte [c]
  | octal {x y z : Nat} (hx : x < 8) (hy : y < 8) (hz : z < 8)
      (value : 8 * (8 * x + y) + z = byte.toNat) :
      Spells byte ['\\', x.digitChar, y.digitChar, z.digitChar]

lemma toNat_ofNat (byte : UInt8) : (Char.ofNat byte.toNat).toNat = byte.toNat := by
  have hvalid : byte.toNat.isValidChar := .inl (by have := byte.toNat_lt; omega)
  rw [Char.ofNat, dif_pos hvalid]
  rfl

lemma utf8EncodeChar_ascii {c : Char} (h : c.toNat ≤ 0x7f) :
    String.utf8EncodeChar c = [UInt8.ofNat c.toNat] :=
  if_pos h

lemma spells_escapeByte (byte : UInt8) : Spells byte (escapeByte byte) := by
  have hlt := byte.toNat_lt
  unfold escapeByte
  extract_lets c
  have hchar : c.toNat = byte.toNat := toNat_ofNat byte
  clear_value c
  have hbyte (c' : Char) (h : c = c') : byte = UInt8.ofNat c'.toNat := by
    rw [← h, hchar, UInt8.ofNat_toNat]
  split
  case isTrue hc =>
    simp only [Bool.or_eq_true, beq_iff_eq] at hc
    obtain rfl | rfl := hc
    · exact .quote (hbyte _ rfl)
    · exact .backslash (hbyte _ rfl)
  case isFalse hc =>
    split
    case isTrue hprintable =>
      simp only [Bool.and_eq_true, decide_eq_true_eq, UInt8.le_iff_toNat_le] at hprintable
      have hrange : IsPrintable c := by
        rw [IsPrintable, hchar]
        exact hprintable
      refine .plain (by simpa using hc) hrange ?_
      rw [utf8EncodeChar_ascii (by have := hrange.2; omega), ← hbyte c rfl]
    case isFalse =>
      have hdigit (n : Nat) : n % 8 < 8 := Nat.mod_lt n (by decide)
      exact .octal (hdigit _) (hdigit _) (hdigit _) (by omega)

lemma isOctal_digitChar : ∀ digit < 8, isOctal (Nat.digitChar digit) = true := by decide

lemma isPrintable_digitChar : ∀ digit < 8, IsPrintable (Nat.digitChar digit) := by decide

namespace Spells
variable {byte : UInt8} {cs : List Char}

lemma isPrintable (h : Spells byte cs) : ∀ c ∈ cs, IsPrintable c := by
  have hslash : IsPrintable '\\' := by decide
  have hquote : IsPrintable '"' := by decide
  cases h with
  | quote => simp [hslash, hquote]
  | backslash => simp [hslash]
  | plain _ hprintable => simpa using hprintable
  | octal hx hy hz => simp [hslash, isPrintable_digitChar, hx, hy, hz]

lemma readBytes_append (h : Spells byte cs) (rest : List Char) :
    readBytes (cs ++ rest) = onto [byte] (readBytes rest) := by
  cases h with
  | quote h => rw [h]; rfl
  | backslash h => rw [h]; rfl
  | plain hunquoted _ hencoded => simp [readBytes, hunquoted, hencoded]
  | @octal x y z hx hy hz hvalue =>
    have hdigits : Nat.ofDigitChars 8 [x.digitChar, y.digitChar, z.digitChar] 0 = byte.toNat := by
      rw [Nat.ofDigitChars_cons_digitChar_of_lt_ten (by omega),
        Nat.ofDigitChars_cons_digitChar_of_lt_ten (by omega),
        Nat.ofDigitChars_cons_digitChar_of_lt_ten (by omega), Nat.ofDigitChars_nil]
      omega
    have hbyte : byte.toNat < 0x100 := byte.toNat_lt
    simp [readBytes, hdigits, isOctal_digitChar, hx, hy, hz, hbyte]

end Spells

/-- Between the quotes of a literal stand printable characters only. -/
lemma isPrintable_escape {bytes : List UInt8} : ∀ c ∈ escape bytes, IsPrintable c := by
  intro c hc
  obtain ⟨byte, -, hspelled⟩ := List.mem_flatMap.mp hc
  exact (spells_escapeByte byte).isPrintable c hspelled

/-- Escaped bytes are read back, whatever comes next. -/
lemma readBytes_escape (bytes : List UInt8) (rest : List Char) :
    readBytes (escape bytes ++ rest) = onto bytes (readBytes rest) := by
  induction bytes with
  | nil => cases h : readBytes rest <;> simp [escape, onto, h]
  | cons byte bytes ih =>
    have hcons : escape (byte :: bytes) = escapeByte byte ++ escape bytes := List.flatMap_cons
    rw [hcons, List.append_assoc, (spells_escapeByte byte).readBytes_append, ih]
    cases readBytes rest <;> rfl

lemma readBytes_escape_nil (bytes : List UInt8) : readBytes (escape bytes) = some (bytes, []) := by
  have hend := readBytes_escape bytes []
  rw [List.append_nil] at hend
  simpa [readBytes, onto] using hend

lemma readBytes_escape_quote (bytes : List UInt8) (rest : List Char) :
    readBytes (escape bytes ++ '"' :: rest) = some (bytes, '"' :: rest) := by
  rw [readBytes_escape]
  simp [readBytes, onto]

lemma escape_inj {bytes bytes' : List UInt8} (h : escape bytes = escape bytes') :
    bytes = bytes' := by
  have hread := readBytes_escape_nil bytes
  rw [h, readBytes_escape_nil] at hread
  cases hread
  rfl

/-- The bytes of a string. -/
def bytesOf (s : String) : List UInt8 :=
  s.toUTF8.data.toList

lemma bytesOf_inj {s t : String} (h : bytesOf s = bytesOf t) : s = t :=
  String.toByteArray_inj.mp (ByteArray.ext (Array.toList_inj.mp h))

/-- The instruction that loads a string, with the body of the literal between its quotes. -/
lemma render_ldstr (s : String) :
    Instruction.render ⟨.ldstr, .text s⟩ =
      "\tldstr\t\"" ++ String.ofList (escape (bytesOf s)) ++ "\"\n" := by
  have hmnemonic : Opcode.ldstr.mnemonic = "ldstr" := rfl
  rw [← String.toList_inj]
  simp [Instruction.render, Operand.render, hmnemonic, render, bytesOf]

/-- **String literals survive escaping.** The body of a literal is printable, so its instruction
stays on one line. It spells the bytes of the string to its end, and the quote after it closes the
literal. -/
theorem ldstr_spells_bytes (s : String) :
    ∃ body : String,
      Instruction.render ⟨.ldstr, .text s⟩ = "\tldstr\t\"" ++ body ++ "\"\n" ∧
      (∀ c ∈ body.toList, IsPrintable c) ∧
      (Instruction.render ⟨.ldstr, .text s⟩).toList.count '\n' = 1 ∧
      readBytes body.toList = some (bytesOf s, []) ∧
      (∀ rest, readBytes (body.toList ++ '"' :: rest) = some (bytesOf s, '"' :: rest)) ∧
      ∀ t, Instruction.render ⟨.ldstr, .text t⟩ = Instruction.render ⟨.ldstr, .text s⟩ → t = s := by
  refine ⟨String.ofList (escape (bytesOf s)), render_ldstr s, ?_⟩
  rw [String.toList_ofList]
  refine ⟨isPrintable_escape, ?_, readBytes_escape_nil _, readBytes_escape_quote _, ?_⟩
  · have hline : (escape (bytesOf s)).count '\n' = 0 :=
      List.count_eq_zero_of_not_mem fun h => absurd (isPrintable_escape _ h).1 (by decide)
    simp [render_ldstr, hline]
  · intro t h
    rw [render_ldstr, render_ldstr, ← String.toList_inj] at h
    have hbody : escape (bytesOf t) = escape (bytesOf s) := by simpa using h
    exact bytesOf_inj (escape_inj hbody)

end CilAssembly.StringLiteral
