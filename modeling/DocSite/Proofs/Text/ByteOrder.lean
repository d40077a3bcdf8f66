import DocSite.Text.Pieces

/-!
# Texts in the order of their bytes

Names are sorted as texts, character by character.  The encoding of characters
as bytes was made so that this is the same as sorting the bytes
(`bytes_lt_bytes_iff`).  A smaller character has a smaller first byte, or else the
same first bytes up to one that is smaller; so two texts differ in their bytes
first where they differ in their characters first.
-/

namespace DocSite

/-- The bytes of a text. -/
def bytes (text : String) : List UInt8 :=
  text.toUTF8.data.toList

theorem bytes_eq_flatMap (text : String) :
    bytes text = text.toList.flatMap String.utf8EncodeChar := by
  rw [bytes, String.toUTF8, ← String.utf8Encode_toList, List.utf8Encode]
  simp

theorem code_lt (c : Char) : c.val.toNat < 0x110000 := by
  rcases c.valid with h | ⟨-, h⟩
  · exact Nat.lt_trans h (by decide)
  · exact h

theorem cons_ofNat_lt_cons_ofNat {m n : Nat} (hm : m < 256) (hn : n < 256)
    (front back : List UInt8) :
    UInt8.ofNat m :: front < UInt8.ofNat n :: back ↔ m < n ∨ m = n ∧ front < back := by
  have hlt : UInt8.ofNat m < UInt8.ofNat n ↔ m < n := by
    rw [UInt8.lt_iff_toNat_lt, UInt8.toNat_ofNat_of_lt' hm, UInt8.toNat_ofNat_of_lt' hn]
  have heq : UInt8.ofNat m = UInt8.ofNat n ↔ m = n := by
    rw [← UInt8.toNat_inj, UInt8.toNat_ofNat_of_lt' hm, UInt8.toNat_ofNat_of_lt' hn]
  rw [List.cons_lt_cons_iff, hlt, heq]

/-- Whatever follows, a smaller character has smaller bytes. -/
theorem encode_append_lt {a b : Char} (h : a < b) (front back : List UInt8) :
    String.utf8EncodeChar a ++ front < String.utf8EncodeChar b ++ back := by
  have hlt : a.val.toNat < b.val.toNat := h
  have hb := code_lt b
  -- the digits to base 64, each taken off the one before
  have hdiv : ∀ n : Nat, n / 4096 = n / 64 / 64 ∧ n / 262144 = n / 64 / 64 / 64 := by omega
  simp only [String.utf8EncodeChar, hdiv]
  -- one case for each pair of lengths; in each the first difference is arithmetic
  repeat' split
  all_goals
    simp (disch := omega) only [List.cons_append, List.nil_append, cons_ofNat_lt_cons_ofNat]
    omega

theorem flatMap_encode_lt {cs ds : List Char} (h : cs < ds) :
    cs.flatMap String.utf8EncodeChar < ds.flatMap String.utf8EncodeChar := by
  induction ds generalizing cs with
  | nil => exact absurd h (List.not_lt_nil cs)
  | cons d ds ih =>
    cases cs with
    | nil =>
      rw [List.flatMap_nil, List.flatMap_cons]
      cases hencode : String.utf8EncodeChar d with
      | nil => exact absurd hencode String.utf8EncodeChar_ne_nil
      | cons first rest => exact List.nil_lt_cons _ _
    | cons c cs =>
      rw [List.flatMap_cons, List.flatMap_cons]
      rcases List.cons_lt_cons_iff.1 h with hlt | ⟨rfl, hlt⟩
      · exact encode_append_lt hlt _ _
      · exact List.append_left_lt (ih hlt)

/-- **Sorting texts is sorting their bytes.** -/
theorem bytes_lt_bytes_iff (a b : String) : bytes a < bytes b ↔ a < b := by
  rw [bytes_eq_flatMap, bytes_eq_flatMap]
  constructor
  · intro h
    by_cases heq : a = b
    · exact absurd h (heq ▸ List.lt_irrefl _)
    · refine Decidable.byContradiction fun hnot => ?_
      have hlt : b < a := String.not_le.1 fun hle => heq (String.le_antisymm hle hnot)
      exact List.lt_asymm h (flatMap_encode_lt hlt)
  · exact fun h => flatMap_encode_lt h

end DocSite
