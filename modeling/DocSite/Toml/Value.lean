import DocSite.Decimal.Shortest

/-!
# Values of a configuration

A configuration is written in TOML: texts, numbers, truth values, dates, lists,
and tables whose entries keep the order in which they are written.  A date is
kept as its text, since nothing is computed from it.
-/

namespace DocSite
namespace Toml

/-- A number that is not an integer. -/
inductive Real where
  | finite (value : Decimal)
  | infinity (negative : Bool)
  | notANumber
  deriving DecidableEq, Inhabited, Repr

/-- A value in a configuration. -/
inductive Value where
  | text (value : String)
  | integer (value : Int)
  /-- What is taken for an integer by its first characters, and spells none. -/
  | misspelt
  | real (value : Real)
  | boolean (value : Bool)
  | date (text : String)
  | array (items : List Value)
  | table (entries : List (String × Value))
  deriving Inhabited, Repr

end Toml
end DocSite
