import Mathlib.Data.List.Basic
import Mathlib.Order.Basic
import Mathlib.Tactic.SplitIfs

/-!
# Bytes of texts

Texts are compared character by character. In UTF-8 this is the order of their bytes.
-/

namespace ConfigLowering

def utf8Bytes (text : String) : List UInt8 := text.toUTF8.data.toList

theorem utf8Bytes_eq (text : String) :
    utf8Bytes text = text.toList.flatMap String.utf8EncodeChar := by
  rw [utf8Bytes, String.toUTF8_eq_toByteArray, ← String.utf8Encode_toList, List.utf8Encode,
    List.toList_data_toByteArray]

theorem ofNat_lt_iff {low high : Nat} (hlow : low < 256) (hhigh : high < 256) :
    UInt8.ofNat low < UInt8.ofNat high ↔ low < high := by
  rw [UInt8.lt_iff_toNat_lt, UInt8.toNat_ofNat_of_lt' hlow, UInt8.toNat_ofNat_of_lt' hhigh]

theorem ofNat_eq_iff {low high : Nat} (hlow : low < 256) (hhigh : high < 256) :
    UInt8.ofNat low = UInt8.ofNat high ↔ low = high := by
  rw [← UInt8.toNat_inj, UInt8.toNat_ofNat_of_lt' hlow, UInt8.toNat_ofNat_of_lt' hhigh]

theorem utf8EncodeChar_append_lt {first second : Char} (h : first < second)
    (rest more : List UInt8) :
    String.utf8EncodeChar first ++ rest < String.utf8EncodeChar second ++ more := by
  have hlt : first.val.toNat < second.val.toNat := h
  have hmax : second.val.toNat < 0x110000 := by
    rcases second.valid with h | h <;> omega
  unfold String.utf8EncodeChar
  generalize first.val.toNat = low at hlt ⊢
  generalize second.val.toNat = high at hlt hmax ⊢
  -- The bytes hold the digits in base 64, behind a mark that grows with their number.
  have hdigits : ∀ value : Nat, value = value % 64 + 64 * (value / 64 % 64) +
      4096 * (value / 4096 % 64) + 262144 * (value / 262144) := by
    intro value
    omega
  have hlow := hdigits low
  have hhigh := hdigits high
  have hlow' : low / 262144 % 8 = low / 262144 := Nat.mod_eq_of_lt (by omega)
  have hhigh' : high / 262144 % 8 = high / 262144 := Nat.mod_eq_of_lt (by omega)
  simp only []
  split_ifs
  all_goals first
    | omega
    | simp (disch := omega) only [List.cons_append, List.nil_append, List.cons_lt_cons_iff,
        ofNat_lt_iff, ofNat_eq_iff]
      omega

theorem flatMap_utf8EncodeChar_lt {first second : List Char} (h : first < second) :
    first.flatMap String.utf8EncodeChar < second.flatMap String.utf8EncodeChar := by
  induction first generalizing second with
  | nil =>
      cases second with
      | nil => simp at h
      | cons character second =>
          cases hbytes : (character :: second).flatMap String.utf8EncodeChar with
          | nil => simp [String.utf8EncodeChar_ne_nil] at hbytes
          | cons byte bytes => exact List.nil_lt_cons _ _
  | cons character first ih =>
      cases second with
      | nil => simp at h
      | cons other second =>
          rw [List.flatMap_cons, List.flatMap_cons]
          obtain hlt | ⟨rfl, hlt⟩ := List.cons_lt_cons_iff.mp h
          · exact utf8EncodeChar_append_lt hlt _ _
          · exact List.append_left_lt (ih hlt)

theorem utf8Bytes_lt {first second : String} (h : compare first second = .lt) :
    utf8Bytes first < utf8Bytes second := by
  have hlt : first < second := compareOfLessAndEq_eq_lt.mp h
  rw [utf8Bytes_eq, utf8Bytes_eq]
  exact flatMap_utf8EncodeChar_lt hlt

end ConfigLowering
