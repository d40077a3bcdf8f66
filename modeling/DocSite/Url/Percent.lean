/-!
# Percent encoding of address paths

An address may hold only some ASCII characters as themselves.  Letters and
digits, the marks `-`, `.`, `_` and `~`, and the slash that separates pieces
stand for themselves; every other character is written byte by byte, each byte
of its UTF-8 form as `%` and two hexadecimal digits, capitals first.

`%` itself is not among the plain characters, so a name that already looks
encoded is encoded again and comes back as it was written.
-/

namespace DocSite
namespace Url

/-- The characters that stand for themselves. -/
def isPlain (c : Char) : Bool :=
  c.isAlphanum || c == '/' || c == '-' || c == '_' || c == '.' || c == '~'

/-- The hexadecimal digit of a number below sixteen, as a capital. -/
def hexDigit (n : Nat) : Char :=
  if n < 10 then Char.ofNat (48 + n) else Char.ofNat (55 + n)

/-- One byte as `%` and two digits. -/
def escapeByte (b : UInt8) : List Char :=
  ['%', hexDigit (b.toNat / 16), hexDigit (b.toNat % 16)]

/-- One character of a path, as it is written in an address. -/
def encodeChar (c : Char) : List Char :=
  if isPlain c then [c] else (String.utf8EncodeChar c).flatMap escapeByte

/-- A path between slashes, as it is written in an address. -/
def encode (path : String) : String :=
  String.ofList (path.toList.flatMap encodeChar)

@[simp] theorem toList_encode (path : String) :
    (encode path).toList = path.toList.flatMap encodeChar := by
  simp [encode]

/-- Characters are encoded one by one. -/
theorem encode_append (p q : String) : encode (p ++ q) = encode p ++ encode q := by
  apply String.toList_inj.1
  simp

end Url
end DocSite
