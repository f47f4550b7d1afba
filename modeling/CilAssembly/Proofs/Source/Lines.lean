import CilAssembly.Source.Lines
import Mathlib.Data.List.Basic
import Mathlib.Tactic.Common

/-!
Line numbers. Looking an offset up in the line starts of a text counts the line ends before it, and
these are the newline bytes of its UTF-8 form.
-/
namespace CilAssembly

namespace Source

/-- The byte offsets of the line ends of a text that begins at `offset`. -/
def lineEndsFrom (offset : Nat) : List Char → List Nat
  | [] => []
  | c :: rest =>
    (if c = '\n' then [offset] else []) ++ lineEndsFrom (offset + c.utf8Size) rest

/-- A line starts after each line end. -/
lemma lineStartsFrom_eq (starts : List Nat) (offset : Nat) (cs : List Char) :
    lineStartsFrom starts offset cs =
      ((lineEndsFrom offset cs).map (· + 1)).reverse ++ starts := by
  induction cs generalizing starts offset with
  | nil => rfl
  | cons c rest ih =>
    by_cases hc : c = '\n'
    · subst hc
      simp [lineStartsFrom, lineEndsFrom, ih, show '\n'.utf8Size = 1 from rfl]
    · simp [lineStartsFrom, lineEndsFrom, ih, hc]

/-- Line ends stand inside the text. -/
lemma bounds_of_mem_lineEndsFrom {offset : Nat} {cs : List Char} {lineEnd : Nat}
    (h : lineEnd ∈ lineEndsFrom offset cs) :
    offset ≤ lineEnd ∧ lineEnd < offset + (String.ofList cs).utf8ByteSize := by
  induction cs generalizing offset with
  | nil => cases h
  | cons c rest ih =>
    have hsize := c.utf8Size_pos
    rw [String.ofList_cons, String.utf8ByteSize_append, String.utf8ByteSize_singleton]
    obtain h | h := List.mem_append.mp h
    · split at h
      · have heq := List.mem_singleton.mp h
        omega
      · cases h
    · have hrest := ih h
      omega

/-- Line ends come in increasing order. -/
lemma pairwise_lineEndsFrom (offset : Nat) (cs : List Char) :
    (lineEndsFrom offset cs).Pairwise (· < ·) := by
  induction cs generalizing offset with
  | nil => exact .nil
  | cons c rest ih =>
    refine List.pairwise_append.mpr ⟨by split <;> simp, ih _, ?_⟩
    intro first hfirst later hlater
    split at hfirst
    · have hbounds := bounds_of_mem_lineEndsFrom hlater
      have hsize := c.utf8Size_pos
      rw [List.mem_singleton.mp hfirst]
      omega
    · cases hfirst

lemma lineEndsFrom_append (offset : Nat) (cs ds : List Char) :
    lineEndsFrom offset (cs ++ ds) =
      lineEndsFrom offset cs ++ lineEndsFrom (offset + (String.ofList cs).utf8ByteSize) ds := by
  induction cs generalizing offset with
  | nil => simp [lineEndsFrom]
  | cons c rest ih => simp [lineEndsFrom, ih, Nat.add_assoc]

lemma length_lineEndsFrom (offset : Nat) (cs : List Char) :
    (lineEndsFrom offset cs).length = cs.count '\n' := by
  induction cs generalizing offset with
  | nil => rfl
  | cons c rest ih => by_cases hc : c = '\n' <;> simp [lineEndsFrom, ih, hc]

/-- The line ends before a place between two characters. -/
lemma countP_lineEndsFrom (before after : List Char) :
    (lineEndsFrom 0 (before ++ after)).countP (· < (String.ofList before).utf8ByteSize) =
      before.count '\n' := by
  have hbefore : (lineEndsFrom 0 before).countP (· < (String.ofList before).utf8ByteSize) =
      before.count '\n' := by
    rw [← length_lineEndsFrom 0]
    refine List.countP_eq_length.mpr fun lineEnd h => ?_
    have hbounds := bounds_of_mem_lineEndsFrom h
    exact decide_eq_true (by omega)
  have hafter : (lineEndsFrom (0 + (String.ofList before).utf8ByteSize) after).countP
      (· < (String.ofList before).utf8ByteSize) = 0 := by
    refine List.countP_eq_zero.mpr fun lineEnd h => ?_
    have hbounds := bounds_of_mem_lineEndsFrom h
    simp only [decide_eq_true_eq]
    omega
  rw [lineEndsFrom_append, List.countP_append, hbefore, hafter, Nat.add_zero]

/-- A character beyond ASCII has high bytes only. -/
lemma high_of_mem_utf8EncodeChar {c : Char} (hc : ¬c.val.toNat ≤ 0x7f) :
    ∀ byte ∈ String.utf8EncodeChar c, 0x80 ≤ byte.toNat := by
  have hhigh {n : Nat} (hn : 0x80 ≤ n ∧ n < 0x100) : 0x80 ≤ (UInt8.ofNat n).toNat := by
    rw [UInt8.toNat_ofNat_of_lt' hn.2]
    exact hn.1
  rw [String.utf8EncodeChar, if_neg hc]
  split
  · rw [List.forall_mem_cons, List.forall_mem_singleton]
    exact ⟨hhigh (by omega), hhigh (by omega)⟩
  · split
    · rw [List.forall_mem_cons, List.forall_mem_cons, List.forall_mem_singleton]
      exact ⟨hhigh (by omega), hhigh (by omega), hhigh (by omega)⟩
    · rw [List.forall_mem_cons, List.forall_mem_cons, List.forall_mem_cons,
        List.forall_mem_singleton]
      exact ⟨hhigh (by omega), hhigh (by omega), hhigh (by omega), hhigh (by omega)⟩

/-- No character but the newline has the byte of a newline in its UTF-8 form. -/
lemma newline_notMem_utf8EncodeChar {c : Char} (hc : c ≠ '\n') :
    0x0a ∉ String.utf8EncodeChar c := by
  intro h
  by_cases hascii : c.val.toNat ≤ 0x7f
  · rw [String.utf8EncodeChar, if_pos hascii, List.mem_singleton] at h
    have hnat := congrArg UInt8.toNat h
    rw [UInt8.toNat_ofNat_of_lt' (Nat.lt_of_le_of_lt hascii (by decide))] at hnat
    exact hc (Char.toNat_inj.mp hnat.symm)
  · exact absurd (high_of_mem_utf8EncodeChar hascii _ h) (by decide)

lemma toList_toUTF8 (text : String) :
    text.toUTF8.data.toList = text.toList.flatMap String.utf8EncodeChar := by
  have hbytes : text.toByteArray = text.toList.utf8Encode := by
    rw [← String.toByteArray_ofList, String.ofList_toList]
  rw [String.toUTF8_eq_toByteArray, hbytes, List.utf8Encode, List.toList_data_toByteArray]

/-- The line ends before an offset are the newline bytes before it. The offset may stand inside a
character. -/
lemma countP_lineEndsFrom_eq_count (start offset : Nat) (cs : List Char) :
    (lineEndsFrom start cs).countP (· < offset) =
      ((cs.flatMap String.utf8EncodeChar).take (offset - start)).count 0x0a := by
  induction cs generalizing start with
  | nil => simp [lineEndsFrom]
  | cons c rest ih =>
    rw [lineEndsFrom, List.countP_append, ih, List.flatMap_cons, List.take_append,
      List.count_append, String.length_utf8EncodeChar, Nat.sub_sub]
    congr 1
    by_cases hc : c = '\n'
    · subst hc
      have hnewline : String.utf8EncodeChar '\n' = [0x0a] := rfl
      rw [if_pos rfl, hnewline]
      cases hlength : offset - start with
      | zero =>
        have hbefore : ¬start < offset := by omega
        simp [hbefore]
      | succ n =>
        have hafter : start < offset := by omega
        simp [hafter]
    · rw [if_neg hc, List.countP_nil]
      refine (List.count_eq_zero.mpr fun h => ?_).symm
      exact newline_notMem_utf8EncodeChar hc (List.mem_of_mem_take h)

end Source

namespace LineIndex

section
variable {xs : List Nat} (hsorted : xs.Pairwise (· ≤ ·)) {n x : Nat} (hn : n < xs.length)
include hsorted

lemma le_getElem_of_mem_take (hx : x ∈ xs.take (n + 1)) : x ≤ xs[n] := by
  have hfirst := hsorted.sublist (List.take_sublist (n + 1) xs)
  rw [List.take_succ_eq_append_getElem hn] at hfirst hx
  obtain hx | hx := List.mem_append.mp hx
  · exact (List.pairwise_append.mp hfirst).2.2 x hx xs[n] (List.mem_singleton_self _)
  · exact Nat.le_of_eq (List.mem_singleton.mp hx)

lemma getElem_le_of_mem_drop (hx : x ∈ xs.drop n) : xs[n] ≤ x := by
  have hlast := hsorted.sublist (List.drop_sublist n xs)
  rw [List.drop_eq_getElem_cons hn] at hlast hx
  obtain rfl | hx := List.mem_cons.mp hx
  · exact Nat.le_refl _
  · exact (List.pairwise_cons.mp hlast).1 x hx

end

lemma getElem_lt_of_mem_drop {xs : List Nat} (hincreasing : xs.Pairwise (· < ·)) {n x : Nat}
    (hn : n < xs.length) (hx : x ∈ xs.drop (n + 1)) : xs[n] < x := by
  have hlast := hincreasing.sublist (List.drop_sublist n xs)
  rw [List.drop_eq_getElem_cons hn] at hlast
  exact (List.pairwise_cons.mp hlast).1 x hx

/-- An offset that parts a list into smaller and greater entries tells how many are up to it. -/
lemma countP_of_split {xs : List Nat} {offset n : Nat} (hn : n ≤ xs.length)
    (hbelow : ∀ x ∈ xs.take n, x ≤ offset) (habove : ∀ x ∈ xs.drop n, offset < x) :
    xs.countP (· ≤ offset) = n := by
  have hfirst : (xs.take n).countP (· ≤ offset) = n := by
    rw [List.countP_eq_length.mpr (by simpa using hbelow), List.length_take, Nat.min_eq_left hn]
  have hlast : (xs.drop n).countP (· ≤ offset) = 0 :=
    List.countP_eq_zero.mpr (by simpa using habove)
  rw [← List.take_append_drop n xs, List.countP_append, hfirst, hlast, Nat.add_zero]

/-- In sorted line starts, the search finds how many are up to an offset. -/
lemma countUpTo_eq {starts : Array Nat} (hsorted : starts.toList.Pairwise (· ≤ ·))
    {offset low high : Nat} (hle : low ≤ high) (hhigh : high ≤ starts.size)
    (hbelow : ∀ start ∈ starts.toList.take low, start ≤ offset)
    (habove : ∀ start ∈ starts.toList.drop high, offset < start) :
    countUpTo starts offset low high = starts.toList.countP (· ≤ offset) := by
  have hentry {n : Nat} (hn : n < starts.size) : starts.getD n 0 = starts.toList[n] := by
    simp [Array.getD, hn]
  fun_induction countUpTo starts offset low high with
  | case1 low high hlt middle hmiddle ih =>
    have hsize : middle < starts.size := by omega
    refine ih (by omega) hhigh ?_ habove
    intro start hstart
    have hmax := le_getElem_of_mem_take hsorted hsize hstart
    rw [← hentry hsize] at hmax
    exact Nat.le_trans hmax hmiddle
  | case2 low high hlt middle hmiddle ih =>
    have hsize : middle < starts.size := by omega
    refine ih (by omega) (by omega) hbelow ?_
    intro start hstart
    have hmin := getElem_le_of_mem_drop hsorted hsize hstart
    rw [← hentry hsize] at hmin
    omega
  | case3 low high hlt =>
    obtain rfl : low = high := by omega
    exact (countP_of_split hhigh hbelow habove).symm

lemma starts_ofText (text : String) : (ofText text).starts.toList =
    0 :: (Source.lineEndsFrom 0 text.toList).map (· + 1) := by
  simp [ofText, Source.lineStartsFrom_eq]

/-- Line starts are strictly increasing. -/
lemma pairwise_starts (text : String) : (ofText text).starts.toList.Pairwise (· < ·) := by
  rw [starts_ofText]
  refine List.pairwise_cons.mpr ⟨by simp, ?_⟩
  rw [List.pairwise_map]
  exact (Source.pairwise_lineEndsFrom 0 text.toList).imp fun h => by omega

lemma lineOf_eq_countP (text : String) (offset : Nat) :
    (ofText text).lineOf offset = (ofText text).starts.toList.countP (· ≤ offset) :=
  countUpTo_eq ((pairwise_starts text).imp Nat.le_of_lt) (Nat.zero_le _) (Nat.le_refl _)
    (List.forall_mem_nil (· ≤ offset)) (by rw [← Array.length_toList, List.drop_length]; simp)

/-- The number of a line is one more than the number of line ends before the offset. -/
theorem lineOf_ofText (text : String) (offset : Nat) :
    (ofText text).lineOf offset =
      1 + (Source.lineEndsFrom 0 text.toList).countP (· < offset) := by
  rw [lineOf_eq_countP, starts_ofText, List.countP_cons_of_pos (by simp), List.countP_map,
    Nat.add_comm]
  rfl

/-- The line of a place between two characters. -/
theorem lineOf_byteSize {text : String} {before after : List Char}
    (h : text.toList = before ++ after) :
    (ofText text).lineOf (String.ofList before).utf8ByteSize = 1 + before.count '\n' := by
  rw [lineOf_ofText, h, Source.countP_lineEndsFrom]

lemma lineOf_eq_count (text : String) (offset : Nat) :
    (ofText text).lineOf offset = 1 + (text.toUTF8.data.toList.take offset).count 0x0a := by
  rw [lineOf_ofText, Source.countP_lineEndsFrom_eq_count, Source.toList_toUTF8, Nat.sub_zero]

lemma length_toUTF8 (text : String) : text.toUTF8.data.toList.length = text.utf8ByteSize := rfl

/-- There is one line more than there are newlines. -/
lemma size_starts (text : String) :
    (ofText text).starts.size = 1 + text.toUTF8.data.toList.count 0x0a := by
  have hwithin : (Source.lineEndsFrom 0 text.toList).countP (· < text.utf8ByteSize) =
      (Source.lineEndsFrom 0 text.toList).length := by
    refine List.countP_eq_length.mpr fun lineEnd h => ?_
    have hbounds := (Source.bounds_of_mem_lineEndsFrom h).2
    rw [Nat.zero_add, String.ofList_toList] at hbounds
    exact decide_eq_true hbounds
  rw [← Array.length_toList, starts_ofText, List.length_cons, List.length_map, ← hwithin,
    Source.countP_lineEndsFrom_eq_count, ← Source.toList_toUTF8, Nat.sub_zero,
    List.take_of_length_le (Nat.le_of_eq (length_toUTF8 text)), Nat.add_comm]

/-- Line numbers are exact. The line of an offset is one more than the newline bytes before it,
wherever in the text or past its end the offset stands. So lines come in order from the first one to
the last, which all offsets past the end belong to. Line starts are strictly increasing: an offset
that is the start of a line belongs to it, and any other to the line before the place where it would
be inserted. -/
theorem lineOf_counts_newlines (text : String) :
    (∀ offset, (ofText text).lineOf offset =
      1 + (text.toUTF8.data.toList.take offset).count 0x0a) ∧
    (∀ offset later, offset ≤ later → (ofText text).lineOf offset ≤ (ofText text).lineOf later) ∧
    (∀ offset, 1 ≤ (ofText text).lineOf offset) ∧
    (∀ offset, text.utf8ByteSize ≤ offset →
      (ofText text).lineOf offset = (ofText text).starts.size) ∧
    (ofText text).starts.toList.Pairwise (· < ·) ∧
    (∀ offset n, (ofText text).starts[n]? = some offset → (ofText text).lineOf offset = n + 1) ∧
    ∀ offset n, n ≤ (ofText text).starts.size →
      (∀ start ∈ (ofText text).starts.toList.take n, start < offset) →
      (∀ start ∈ (ofText text).starts.toList.drop n, offset < start) →
        (ofText text).lineOf offset = n := by
  have hincreasing := pairwise_starts text
  refine ⟨lineOf_eq_count text, ?_, ?_, ?_, hincreasing, ?_, ?_⟩
  · intro offset later hle
    rw [lineOf_eq_count, lineOf_eq_count]
    exact Nat.add_le_add_left ((List.take_sublist_take_left hle).count_le _) 1
  · intro offset
    rw [lineOf_eq_count]
    exact Nat.le_add_right 1 _
  · intro offset hend
    rw [← length_toUTF8] at hend
    rw [lineOf_eq_count, size_starts, List.take_of_length_le hend]
  · intro offset n hstart
    obtain ⟨hn, rfl⟩ := Array.getElem?_eq_some_iff.mp hstart
    rw [lineOf_eq_countP]
    refine countP_of_split hn (fun start h => ?_) (fun start h => ?_)
    · exact le_getElem_of_mem_take (hincreasing.imp Nat.le_of_lt) hn h
    · exact getElem_lt_of_mem_drop hincreasing hn h
  · intro offset n hn hbelow habove
    rw [lineOf_eq_countP]
    exact countP_of_split hn (fun start h => Nat.le_of_lt (hbelow start h)) habove

end LineIndex

end CilAssembly
