import DocSite.Text.Case
import DocSite.Text.HiddenTable

/-!
# Texts quoted in messages

A text that a message complains about is shown between quotation marks, so that
its ends can be seen, and whatever in it could not be seen is shown by its
number.
-/

namespace DocSite
namespace Quoted

/-- The digits of a number in base sixteen, as small letters. -/
def hexDigits (n : Nat) : List Char :=
  Nat.toDigits 16 n

/-- One character between quotation marks. -/
def escapeChar (c : Char) : List Char :=
  if c = '"' then ['\\', '"']
  else if c = '\\' then ['\\', '\\']
  else if c = '\n' then ['\\', 'n']
  else if c = '\r' then ['\\', 'r']
  else if c = '\t' then ['\\', 't']
  else if c.toNat = 0 then ['\\', '0']
  else if Case.inRanges Hidden.hiddenRanges c.toNat then
    ['\\', 'u', '\x7b'] ++ hexDigits c.toNat ++ ['\x7d']
  else [c]

/-- A text between quotation marks. -/
def encode (text : String) : String :=
  String.ofList ('"' :: text.toList.flatMap escapeChar ++ ['"'])

end Quoted
end DocSite
