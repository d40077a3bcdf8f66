import DocSite.Proofs.Path.Portable
import DocSite.Proofs.Text.ByteOrder
import DocSite.Url.Percent

/-!
# What percent encoding keeps

Reading an encoded path back gives its bytes (`decode_encode`), so no two paths are
encoded alike (`encode_injective`).  In particular only `.` and `..` are encoded as
`.` and `..`, and since a slash stands for itself and comes from nothing else, a path
is encoded piece by piece (`encode_joined`).

What is written consists of plain characters and the percent sign
(`isPlain_or_eq_percent_of_mem_encode`).  The characters with which an address
begins a scheme, a query or a fragment are not among them.
-/

namespace DocSite
namespace Url

/-! ## Reading back -/

/-- The value of a hexadecimal digit, in either case. -/
def digitValue? (c : Char) : Option Nat :=
  if '0' ≤ c ∧ c ≤ '9' then some (c.toNat - 48)
  else if 'A' ≤ c ∧ c ≤ 'F' then some (c.toNat - 55)
  else if 'a' ≤ c ∧ c ≤ 'f' then some (c.toNat - 87)
  else none

theorem digitValue?_hexDigit {n : Nat} (h : n < 16) : digitValue? (hexDigit n) = some n := by
  have hall : ∀ m : Fin 16, digitValue? (hexDigit m) = some m.1 := by decide
  exact hall ⟨n, h⟩

/-- The bytes of an encoded text: a percent sign and two hexadecimal digits stand for a
byte, and elsewhere every character stands for its own bytes. -/
def decode : List Char → List UInt8
  | '%' :: high :: low :: rest =>
    match digitValue? high, digitValue? low with
    | some h, some l => UInt8.ofNat (16 * h + l) :: decode rest
    | _, _ => String.utf8EncodeChar '%' ++ decode (high :: low :: rest)
  | c :: rest => String.utf8EncodeChar c ++ decode rest
  | [] => []

theorem decode_escapeByte_append (b : UInt8) (rest : List Char) :
    decode (escapeByte b ++ rest) = b :: decode rest := by
  have hlt := b.toNat_lt
  have hhigh : digitValue? (hexDigit (b.toNat / 16)) = some (b.toNat / 16) :=
    digitValue?_hexDigit (by omega)
  have hlow : digitValue? (hexDigit (b.toNat % 16)) = some (b.toNat % 16) :=
    digitValue?_hexDigit (by omega)
  rw [escapeByte, List.cons_append, List.cons_append, List.cons_append, List.nil_append, decode,
    hhigh, hlow]
  show UInt8.ofNat (16 * (b.toNat / 16) + b.toNat % 16) :: decode rest = b :: decode rest
  rw [Nat.div_add_mod, UInt8.ofNat_toNat]

theorem decode_flatMap_escapeByte_append (bs : List UInt8) (rest : List Char) :
    decode (bs.flatMap escapeByte ++ rest) = bs ++ decode rest := by
  induction bs with
  | nil => rfl
  | cons b bs ih =>
    rw [List.flatMap_cons, List.append_assoc, decode_escapeByte_append, ih, List.cons_append]

theorem decode_encodeChar_append (c : Char) (rest : List Char) :
    decode (encodeChar c ++ rest) = String.utf8EncodeChar c ++ decode rest := by
  rw [encodeChar]
  split
  · rename_i hplain
    have hpercent : c ≠ '%' := by
      rintro rfl
      exact absurd hplain (by decide)
    rw [List.singleton_append, decode]
    rintro _ _ _ rfl
    exact absurd rfl hpercent
  · exact decode_flatMap_escapeByte_append _ rest

/-- **Reading an encoded path gives its bytes.** -/
theorem decode_encode (path : String) : decode (encode path).toList = bytes path := by
  have hchars : ∀ chars : List Char,
      decode (chars.flatMap encodeChar) = chars.flatMap String.utf8EncodeChar := by
    intro chars
    induction chars with
    | nil => rfl
    | cons c rest ih =>
      rw [List.flatMap_cons, decode_encodeChar_append, ih, List.flatMap_cons]
  rw [toList_encode, hchars, bytes_eq_flatMap]

theorem bytes_injective : Function.Injective bytes := by
  intro a b h
  have hnot : ∀ {a b : String}, bytes a = bytes b → ¬ a < b := fun h hlt =>
    List.lt_irrefl _ (h ▸ (bytes_lt_bytes_iff _ _).2 hlt)
  exact String.le_antisymm (String.not_lt.1 (hnot h.symm)) (String.not_lt.1 (hnot h))

theorem encode_injective : Function.Injective encode := by
  intro p q h
  exact bytes_injective (by rw [← decode_encode, h, decode_encode])

/-! ## The characters that are written -/

theorem isPlain_or_eq_percent_of_mem_escapeByte {b : UInt8} {c : Char} (h : c ∈ escapeByte b) :
    isPlain c ∨ c = '%' := by
  have hdigit : ∀ m : Fin 16, isPlain (hexDigit m) := by decide
  have hlt := b.toNat_lt
  rw [escapeByte] at h
  simp only [List.mem_cons, List.not_mem_nil, or_false] at h
  rcases h with rfl | rfl | rfl
  · exact .inr rfl
  · exact .inl (hdigit ⟨_, by omega⟩)
  · exact .inl (hdigit ⟨_, by omega⟩)

theorem isPlain_or_eq_percent_of_mem_encode {path : String} {c : Char}
    (h : c ∈ (encode path).toList) : isPlain c ∨ c = '%' := by
  rw [toList_encode] at h
  obtain ⟨d, -, hd⟩ := List.mem_flatMap.1 h
  rw [encodeChar] at hd
  split at hd
  · rename_i hplain
    exact .inl (List.mem_singleton.1 hd ▸ hplain)
  · obtain ⟨b, -, hb⟩ := List.mem_flatMap.1 hd
    exact isPlain_or_eq_percent_of_mem_escapeByte hb

theorem mem_encode {path : String} {c : Char} (hc : c ∈ path.toList) (hplain : isPlain c) :
    c ∈ (encode path).toList := by
  rw [toList_encode]
  exact List.mem_flatMap.2
    ⟨c, hc, by rw [encodeChar, if_pos hplain]; exact List.mem_singleton_self c⟩

/-- A character that no escape is written with stands in an encoded path only where the
path has it. -/
theorem mem_of_mem_encode {path : String} {c : Char} (hpercent : c ≠ '%')
    (hdigit : ∀ m : Fin 16, hexDigit m ≠ c) (h : c ∈ (encode path).toList) : c ∈ path.toList := by
  rw [toList_encode] at h
  obtain ⟨d, hd, hmem⟩ := List.mem_flatMap.1 h
  rw [encodeChar] at hmem
  split at hmem
  · exact List.mem_singleton.1 hmem ▸ hd
  · obtain ⟨b, -, hb⟩ := List.mem_flatMap.1 hmem
    have hlt := b.toNat_lt
    rw [escapeByte] at hb
    simp only [List.mem_cons, List.not_mem_nil, or_false] at hb
    rcases hb with hb | hb | hb
    · exact absurd hb hpercent
    · exact absurd hb.symm (hdigit ⟨_, by omega⟩)
    · exact absurd hb.symm (hdigit ⟨_, by omega⟩)

/-- An encoded path has slashes where the path has them. -/
theorem slashFree_encode {name : String} (h : SlashFree name) : SlashFree (encode name) :=
  mt (mem_of_mem_encode (by decide) (by decide)) h

/-- An encoded path has dots where the path has them. -/
theorem dot_mem_encode_iff {path : String} : '.' ∈ (encode path).toList ↔ '.' ∈ path.toList :=
  ⟨mem_of_mem_encode (by decide) (by decide), fun h => mem_encode h (by decide)⟩

@[simp] theorem encode_empty : encode "" = "" := by decide

@[simp] theorem encode_dot : encode "." = "." := by decide

@[simp] theorem encode_dotDot : encode ".." = ".." := by decide

@[simp] theorem encode_slash : encode "/" = "/" := by decide

theorem encode_eq_empty_iff {name : String} : encode name = "" ↔ name = "" :=
  ⟨fun h => encode_injective (h.trans encode_empty.symm), fun h => h ▸ encode_empty⟩

theorem encode_eq_dot_iff {name : String} : encode name = "." ↔ name = "." :=
  ⟨fun h => encode_injective (h.trans encode_dot.symm), fun h => h ▸ encode_dot⟩

theorem encode_eq_dotDot_iff {name : String} : encode name = ".." ↔ name = ".." :=
  ⟨fun h => encode_injective (h.trans encode_dotDot.symm), fun h => h ▸ encode_dotDot⟩

/-- A path is encoded piece by piece. -/
theorem encode_joined (parts : List String) :
    encode (joined parts) = joined (parts.map encode) := by
  induction parts with
  | nil => rfl
  | cons first rest ih =>
    cases rest with
    | nil => rw [joined_singleton, List.map_singleton, joined_singleton]
    | cons second others =>
      rw [joined_cons_cons, encode_append, encode_append, encode_slash, ih]
      exact (joined_cons_cons _ _ _).symm

theorem areLegal_map_encode {names : List String} (h : AreLegal names) :
    AreLegal (names.map encode) := by
  intro part hpart
  obtain ⟨name, hname, rfl⟩ := List.mem_map.1 hpart
  have hlegal := h name hname
  exact ⟨mt encode_eq_empty_iff.1 hlegal.1, mt encode_eq_dot_iff.1 hlegal.2.1,
    mt encode_eq_dotDot_iff.1 hlegal.2.2.1, slashFree_encode hlegal.2.2.2⟩

theorem areParts_map_encode {parts : List String} (h : AreParts parts) :
    AreParts (parts.map encode) := by
  intro encoded hencoded
  obtain ⟨part, hpart, rfl⟩ := List.mem_map.1 hencoded
  exact ⟨mt encode_eq_empty_iff.1 (h part hpart).1, slashFree_encode (h part hpart).2⟩

end Url
end DocSite
