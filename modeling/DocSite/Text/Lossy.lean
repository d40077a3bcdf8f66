/-!
# Bytes shown as a text

A row of bytes that is not a text in UTF-8 can still be shown as one.  Where a
character can be read it is read, and U+FFFD is shown for what lies in between:
once for bytes with which a character begins that does not go on, and once for any
other byte.

A text is shown as itself (`lossyText_utf8Bytes`), and nothing else is, so different
rows of bytes may be shown as one text (`utf8Bytes_lossyText_eq_iff`).
-/

namespace DocSite

/-- The bytes of a text. -/
def utf8Bytes (text : String) : List UInt8 :=
  text.toList.flatMap String.utf8EncodeChar

/-- What is shown where no character can be read. -/
def replacementChar : Char :=
  Char.ofNat 0xFFFD

/-- Where the bytes lie that follow a first byte in a character.  No byte follows one
that is a character by itself or begins none. -/
def followerRanges (lead : UInt8) : List (UInt8 × UInt8) :=
  let tail : UInt8 × UInt8 := (0x80, 0xBF)
  if lead < 0xC2 then []
  else if lead < 0xE0 then [tail]
  else if lead = 0xE0 then [(0xA0, 0xBF), tail]
  else if lead = 0xED then [(0x80, 0x9F), tail]
  else if lead < 0xF0 then [tail, tail]
  else if lead = 0xF0 then [(0x90, 0xBF), tail, tail]
  else if lead < 0xF4 then [tail, tail, tail]
  else if lead = 0xF4 then [(0x80, 0x8F), tail, tail]
  else []

/-- How many bytes lie in some ranges, each in its own, before one does not. -/
def countWithin : List (UInt8 × UInt8) → List UInt8 → Nat
  | (low, high) :: ranges, byte :: rest =>
    if low ≤ byte ∧ byte ≤ high then countWithin ranges rest + 1 else 0
  | _, _ => 0

/-- The characters shown for some bytes, of which the first few were read before. -/
def lossyChars : Nat → List UInt8 → List Char
  | _, [] => []
  | skip + 1, _ :: rest => lossyChars skip rest
  | 0, lead :: rest =>
    match (lead :: rest).toByteArray.utf8DecodeChar? 0 with
    | some c => c :: lossyChars (c.utf8Size - 1) rest
    | none => replacementChar :: lossyChars (countWithin (followerRanges lead) rest) rest

/-- The text that is shown for some bytes. -/
def lossyText (bytes : List UInt8) : String :=
  String.ofList (lossyChars 0 bytes)

/-- Bytes that were read before are passed over. -/
theorem lossyChars_append (front rest : List UInt8) :
    lossyChars front.length (front ++ rest) = lossyChars 0 rest := by
  induction front with
  | nil => rfl
  | cons byte front ih => exact ih

theorem lossyChars_utf8EncodeChar_append (c : Char) (rest : List UInt8) :
    lossyChars 0 (String.utf8EncodeChar c ++ rest) = c :: lossyChars 0 rest := by
  have hread : (String.utf8EncodeChar c ++ rest).toByteArray.utf8DecodeChar? 0 = some c := by
    rw [List.toByteArray_append, ByteArray.utf8DecodeChar?_utf8EncodeChar_append]
  have hlength := String.length_utf8EncodeChar c
  cases hbytes : String.utf8EncodeChar c with
  | nil =>
    rw [hbytes, List.length_nil] at hlength
    exact absurd c.utf8Size_pos (hlength ▸ Nat.lt_irrefl 0)
  | cons lead tail =>
    rw [hbytes, List.cons_append] at hread
    rw [hbytes, List.length_cons] at hlength
    have htail : c.utf8Size - 1 = tail.length := by omega
    rw [List.cons_append, lossyChars, hread]
    exact congrArg (c :: ·) (htail ▸ lossyChars_append tail rest)

/-- **A text is shown as itself.** -/
theorem lossyText_utf8Bytes (text : String) : lossyText (utf8Bytes text) = text := by
  have hchars : ∀ cs : List Char, lossyChars 0 (cs.flatMap String.utf8EncodeChar) = cs := by
    intro cs
    induction cs with
    | nil => rfl
    | cons c rest ih => rw [List.flatMap_cons, lossyChars_utf8EncodeChar_append, ih]
  rw [lossyText, utf8Bytes, hchars, String.ofList_toList]

/-- Nothing is shown as itself but a text. -/
theorem utf8Bytes_lossyText_eq_iff (bytes : List UInt8) :
    utf8Bytes (lossyText bytes) = bytes ↔ ∃ text, utf8Bytes text = bytes := by
  constructor
  · exact fun h => ⟨_, h⟩
  · rintro ⟨text, rfl⟩
    rw [lossyText_utf8Bytes]

end DocSite
