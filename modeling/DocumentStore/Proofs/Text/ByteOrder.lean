import Mathlib.Data.String.Basic
import Mathlib.Tactic.SplitIfs

/-!
# The order of texts and the order of their bytes

Texts are ordered character by character. Their UTF-8 bytes, compared byte by byte, are in the same
order, because the encoding of a greater character is greater at the first byte where the two differ,
whatever follows.

* `utf8EncodeChar_append_lt`: the encodings of two characters, each with any bytes behind it;
* `bytesBelow_of_lt`: ascending texts have ascending bytes.
-/

namespace DocumentStore

variable {c d : Char} {s t : String}

/-- The UTF-8 bytes of one text come before those of another, byte by byte. -/
def BytesBelow (s t : String) : Prop :=
  s.toUTF8.data.toList < t.toUTF8.data.toList

theorem ofNat_cons_lt {m n : Nat} {front back : List UInt8} (hn : n < 256) (hle : m ≤ n)
    (h : m = n → front < back) : UInt8.ofNat m :: front < UInt8.ofNat n :: back := by
  rw [List.cons_lt_cons_iff]
  rcases Nat.lt_or_eq_of_le hle with hlt | heq
  · left
    rw [UInt8.lt_iff_toNat_lt, UInt8.toNat_ofNat', UInt8.toNat_ofNat']
    omega
  · exact .inr ⟨congrArg UInt8.ofNat heq, h heq⟩

theorem utf8EncodeChar_append_lt (h : c < d) (front back : List UInt8) :
    String.utf8EncodeChar c ++ front < String.utf8EncodeChar d ++ back := by
  have hlt : c.val.toNat < d.val.toNat := UInt32.lt_iff_toNat_lt.1 h
  have hmax : d.val.toNat < 0x110000 := by rcases d.valid with hlow | hhigh <;> omega
  rw [String.utf8EncodeChar, String.utf8EncodeChar]
  -- the lead bytes of shorter encodings are smaller, and equal bytes put the order off to the next ones
  split_ifs
  all_goals
    simp only [List.cons_append, List.nil_append]
    repeat' first
      | (exfalso; omega)
      | refine ofNat_cons_lt (by omega) (by omega) fun _ => ?_

theorem flatMap_utf8EncodeChar_lt {l m : List Char} (h : l < m) :
    l.flatMap String.utf8EncodeChar < m.flatMap String.utf8EncodeChar := by
  induction h with
  | @nil d rest =>
    rw [List.flatMap_nil, List.flatMap_cons]
    obtain ⟨byte, bytes, hbytes⟩ := List.exists_cons_of_ne_nil (String.utf8EncodeChar_ne_nil (c := d))
    rw [hbytes, List.cons_append]
    exact List.nil_lt_cons byte _
  | rel hlt =>
    rw [List.flatMap_cons, List.flatMap_cons]
    exact utf8EncodeChar_append_lt hlt _ _
  | cons hrest ih =>
    rw [List.flatMap_cons, List.flatMap_cons]
    exact List.append_left_lt ih

theorem toUTF8_toList (s : String) :
    s.toUTF8.data.toList = s.toList.flatMap String.utf8EncodeChar := by
  rw [String.toUTF8_eq_toByteArray, ← String.utf8Encode_toList, List.utf8Encode,
    List.toList_data_toByteArray]

/-- Ascending texts have ascending bytes. -/
theorem bytesBelow_of_lt (h : s < t) : BytesBelow s t := by
  rw [BytesBelow, toUTF8_toList, toUTF8_toList]
  exact flatMap_utf8EncodeChar_lt (String.lt_iff_toList_lt.1 h)

end DocumentStore
