import Mathlib.Tactic.SplitIfs

/-!
# The order of bytes

Texts are compared character by character. This is the order of their bytes in UTF-8, because a
character with a greater code point has greater bytes from the first place where they differ, and
the bytes of no character begin those of another.
-/

namespace Stubgen.Text

/-- The bytes of a text in UTF-8. -/
def utf8 (text : String) : List UInt8 :=
  text.toUTF8.data.toList

/-- The bytes of a text are those of its characters. -/
theorem utf8_eq (text : String) : utf8 text = text.toList.flatMap String.utf8EncodeChar := by
  have hencoded := String.toByteArray_ofList (l := text.toList)
  rw [String.ofList_toList, List.utf8Encode] at hencoded
  rw [utf8, String.toUTF8_eq_toByteArray, hencoded, List.toList_data_toByteArray]

/-- Of two rows of bytes, the one with the smaller first byte is smaller; if the first bytes are
the same, the others decide. -/
theorem ofNat_cons_lt {m n : Nat} {bytes bytes' : List UInt8} (hsmall : n < 256) (hle : m ≤ n)
    (h : m = n → bytes < bytes') : UInt8.ofNat m :: bytes < UInt8.ofNat n :: bytes' := by
  rw [List.cons_lt_cons_iff]
  by_cases hlt : m < n
  · have hsize : UInt8.size = 256 := rfl
    exact .inl ((UInt8.ofNat_lt_iff_lt (by omega) (by omega)).mpr hlt)
  · obtain rfl : m = n := by omega
    exact .inr ⟨rfl, h rfl⟩

/-- A row of bytes with a smaller first byte is smaller. -/
theorem ofNat_cons_lt_of_lt {m n : Nat} (hsmall : n < 256) (hlt : m < n)
    (bytes bytes' : List UInt8) : UInt8.ofNat m :: bytes < UInt8.ofNat n :: bytes' :=
  ofNat_cons_lt hsmall (by omega) fun hsame => absurd hsame (by omega)

section Digits

variable {v w : Nat} (hlt : v < w) (rest rest' : List UInt8)

include hlt

/-- If only the last digits in base 64 differ, the bytes of these decide. -/
theorem last_lt (hsame : v / 64 = w / 64) :
    UInt8.ofNat (v % 64 + 128) :: rest < UInt8.ofNat (w % 64 + 128) :: rest' :=
  ofNat_cons_lt_of_lt (by omega) (by omega) rest rest'

/-- If at most the last two digits in base 64 differ, the bytes of these decide. -/
theorem lastTwo_lt (hsame : v / 4096 = w / 4096) :
    UInt8.ofNat (v / 64 % 64 + 128) :: UInt8.ofNat (v % 64 + 128) :: rest <
      UInt8.ofNat (w / 64 % 64 + 128) :: UInt8.ofNat (w % 64 + 128) :: rest' :=
  ofNat_cons_lt (by omega) (by omega) fun _ => last_lt hlt rest rest' (by omega)

/-- If at most the last three digits in base 64 differ, the bytes of these decide. -/
theorem lastThree_lt (hsame : v / 262144 = w / 262144) :
    UInt8.ofNat (v / 4096 % 64 + 128) :: UInt8.ofNat (v / 64 % 64 + 128) ::
        UInt8.ofNat (v % 64 + 128) :: rest <
      UInt8.ofNat (w / 4096 % 64 + 128) :: UInt8.ofNat (w / 64 % 64 + 128) ::
        UInt8.ofNat (w % 64 + 128) :: rest' :=
  ofNat_cons_lt (by omega) (by omega) fun _ => lastTwo_lt hlt rest rest' (by omega)

end Digits

/-- The bytes of a character with a smaller code point are smaller, whatever follows them. -/
theorem utf8EncodeChar_append_lt {c d : Char} (h : c < d) (rest rest' : List UInt8) :
    String.utf8EncodeChar c ++ rest < String.utf8EncodeChar d ++ rest' := by
  have hlt : c.val.toNat < d.val.toNat := h
  have hlast : d.val.toNat < 0x110000 := by
    have := d.valid
    unfold UInt32.isValidChar Nat.isValidChar at this
    omega
  rw [String.utf8EncodeChar.eq_1, String.utf8EncodeChar.eq_1]
  generalize c.val.toNat = v at hlt ⊢
  generalize d.val.toNat = w at hlt hlast ⊢
  -- A code point that needs more bytes has a greater first byte. Of two that need equally many, the
  -- greater one has a greater digit in base 64 at the first place where they differ.
  by_cases hone : v ≤ 127
  · rw [if_pos hone]
    split_ifs
    all_goals exact ofNat_cons_lt_of_lt (by omega) (by omega) _ _
  by_cases htwo : v ≤ 2047
  · rw [if_neg hone, if_pos htwo, if_neg (by omega)]
    split_ifs
    · exact ofNat_cons_lt (by omega) (by omega) fun _ => last_lt hlt rest rest' (by omega)
    all_goals exact ofNat_cons_lt_of_lt (by omega) (by omega) _ _
  by_cases hthree : v ≤ 65535
  · rw [if_neg hone, if_neg htwo, if_pos hthree, if_neg (by omega), if_neg (by omega)]
    split_ifs
    · exact ofNat_cons_lt (by omega) (by omega) fun _ => lastTwo_lt hlt rest rest' (by omega)
    · exact ofNat_cons_lt_of_lt (by omega) (by omega) _ _
  · rw [if_neg hone, if_neg htwo, if_neg hthree, if_neg (by omega), if_neg (by omega),
      if_neg (by omega)]
    exact ofNat_cons_lt (by omega) (by omega) fun _ => lastThree_lt hlt rest rest' (by omega)

/-- A smaller text has smaller bytes. -/
theorem utf8_lt_of_lt {a b : String} (h : a < b) : utf8 a < utf8 b := by
  rw [utf8_eq, utf8_eq]
  rw [String.lt_iff, ← List.lex_lt] at h
  generalize a.toList = characters at h ⊢
  generalize b.toList = characters' at h ⊢
  induction h with
  | @nil c cs =>
    have hbytes : String.utf8EncodeChar c ≠ [] := String.utf8EncodeChar_ne_nil
    obtain ⟨byte, bytes, hbytes⟩ := List.exists_cons_of_ne_nil hbytes
    rw [List.flatMap_nil, List.flatMap_cons, hbytes]
    exact List.nil_lt_cons _ _
  | rel hlt =>
    rw [List.flatMap_cons, List.flatMap_cons]
    exact utf8EncodeChar_append_lt hlt _ _
  | cons _ ih =>
    rw [List.flatMap_cons, List.flatMap_cons]
    exact List.append_left_lt ih

/-- Texts are in the order of their bytes. -/
theorem utf8_lt_utf8_iff {a b : String} : utf8 a < utf8 b ↔ a < b := by
  refine ⟨fun h => ?_, utf8_lt_of_lt⟩
  by_cases hlt : a < b
  · exact hlt
  · have hle : b ≤ a := hlt
    by_cases hgt : b < a
    · exact absurd (utf8_lt_of_lt hgt) (List.lt_asymm h)
    · have heq : a = b := String.le_antisymm hgt hle
      exact absurd h (heq ▸ List.lt_irrefl _)

end Stubgen.Text
