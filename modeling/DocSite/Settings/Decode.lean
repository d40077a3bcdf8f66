import DocSite.Nav.Spec
import DocSite.Text.Quoted
import DocSite.Toml.Value

/-!
# Settings as they are written

A configuration has two tables and two values of its own, each with a type, and
a value of another type is refused with both types named.  Values under other
keys are passed over.  The first refusal in the order of the document counts.

A table of known keys may also be written as a list of their values in the order
in which the keys are listed here; what is left out keeps its default.  A date
counts as a table with one entry that no setting has.
-/

namespace DocSite

/-- Why a value is refused. -/
inductive TypeFault where
  /-- It is of another type. -/
  | mismatch (found expected : String)
  /-- It is no number that can be kept, although it is taken for one. -/
  | overflow
  deriving DecidableEq, Inhabited, Repr

/-- The wording of a refusal, where it has one. -/
def TypeFault.message? : TypeFault → Option String
  | mismatch found expected => some s!"invalid type: {found}, expected {expected}"
  | overflow => none

/-- The table of settings about documents. -/
structure DocsTable where
  docsDir : Option String
  siteDir : Option String
  directoryUrls : Option Bool
  exclude : Option (List String)
  nav : Option Nav.Spec
  deriving Inhabited, Repr

/-- The table of settings about themes. -/
structure ThemeTable where
  dirs : Option (List String)
  templates : Option (List String)
  deriving Inhabited, Repr

/-- Settings as they are written. -/
structure WrittenSettings where
  siteName : String
  strict : Bool
  docs : DocsTable
  theme : ThemeTable
  deriving Inhabited, Repr

/-- The name of a site that has none. -/
def defaultSiteName : String := "Documentation"

namespace Decode

open Toml (Value)

/-- A reader of one type of values. -/
abbrev Decoder (α : Type) := Value → Except TypeFault α

/-- What a number is called, if it can be kept. -/
def describeInteger (n : Int) : Except TypeFault String :=
  -- The number of digits in base two; a negative number has room for one more.
  let fits (below above : Nat) : Bool :=
    if n < 0 then n.natAbs ≤ Nat.pow 2 below else n.natAbs < Nat.pow 2 above
  if fits 63 64 then .ok s!"integer `{n}`"
  else if fits 127 127 then .ok s!"integer `{n}` as i128"
  else if 0 ≤ n ∧ fits 0 128 then .ok s!"integer `{n}` as u128"
  else .error .overflow

/-- What a number with a point is called, if it can be kept. -/
def describeReal : Toml.Real → Except TypeFault String
  | .finite d =>
    match d.shown? with
    | some text => .ok s!"floating point `{text}`"
    | none => .error .overflow
  | .infinity negative =>
    .ok (if negative then "floating point `-inf`" else "floating point `inf`")
  | .notANumber => .ok "floating point `NaN`"

/-- What a value is called. -/
def describe : Value → Except TypeFault String
  | .text text => .ok s!"string {Quoted.encode text}"
  | .integer n => describeInteger n
  | .misspelt => .error .overflow
  | .real r => describeReal r
  | .boolean b => .ok (if b then "boolean `true`" else "boolean `false`")
  | .array _ => .ok "sequence"
  | .date _ | .table _ => .ok "map"

/-- The refusal of a value where another type is expected. -/
def refuse {α : Type} (expected : String) (v : Value) : Except TypeFault α := do
  throw (.mismatch (← describe v) expected)

/-- A text. -/
def text : Decoder String
  | .text text => .ok text
  | v => refuse "a string" v

/-- A truth value. -/
def truth : Decoder Bool
  | .boolean b => .ok b
  | v => refuse "a boolean" v

/-- A list of texts. -/
def texts : Decoder (List String)
  | .array items => items.mapM text
  | v => refuse "a sequence" v

/-- The key of the one entry that a date has. -/
def dateKey : String := "$__toml_private_datetime"

mutual
/-- A navigation specification. -/
def spec : Value → Except TypeFault Nav.Spec
  | .text target => .ok (.leaf target)
  | .array items => do return .list (← specs items)
  | .table entries => do return .mapping (← titledSpecs entries)
  | .date text => .ok (.mapping [(dateKey, .leaf text)])
  | v => refuse
    "a document path, a list of nav entries, or a mapping of titles to nav entries" v

/-- Navigation specifications in order. -/
def specs : List Value → Except TypeFault (List Nav.Spec)
  | [] => .ok []
  | v :: rest => do return (← spec v) :: (← specs rest)

/-- Titled navigation specifications in order. -/
def titledSpecs : List (String × Value) → Except TypeFault (List (String × Nav.Spec))
  | [] => .ok []
  | (title, v) :: rest => do return (title, ← spec v) :: (← titledSpecs rest)
end

mutual
/-- A value that is passed over; it must be one that can be kept. -/
def skip : Value → Except TypeFault Unit
  | .integer n => (describeInteger n).map fun _ => ()
  | .misspelt => .error .overflow
  | .real r => (describeReal r).map fun _ => ()
  | .array items => skipAll items
  | .table entries => skipEntries entries
  | .text _ | .boolean _ | .date _ => .ok ()

/-- Values that are passed over. -/
def skipAll : List Value → Except TypeFault Unit
  | [] => .ok ()
  | v :: rest => do skip v; skipAll rest

/-- Entries that are passed over. -/
def skipEntries : List (String × Value) → Except TypeFault Unit
  | [] => .ok ()
  | (_, v) :: rest => do skip v; skipEntries rest
end

/-- A table of known keys, entry by entry in the order of the document, or a list
of their values. -/
def table {α : Type} (expected : String) (keys : List String)
    (set : α → String → Decoder α) (start : α) : Decoder α
  | .table entries => entries.foldlM (fun a (key, v) => set a key v) start
  | .array items => (keys.zip items).foldlM (fun a (key, v) => set a key v) start
  | .date _ => .ok start
  | v => refuse expected v

/-- The table of settings about documents. -/
def docs : Decoder DocsTable :=
  table "struct DocsConfigRaw" ["docs_dir", "site_dir", "use_directory_urls", "exclude", "nav"]
    (fun t key v => do
      match key with
      | "docs_dir" => return { t with docsDir := some (← text v) }
      | "site_dir" => return { t with siteDir := some (← text v) }
      | "use_directory_urls" => return { t with directoryUrls := some (← truth v) }
      | "exclude" => return { t with exclude := some (← texts v) }
      | "nav" => return { t with nav := some (← spec v) }
      | _ => skip v; return t)
    ⟨none, none, none, none, none⟩

/-- The table of settings about themes. -/
def theme : Decoder ThemeTable :=
  table "struct ThemeConfigRaw" ["dirs", "static_templates"]
    (fun t key v => do
      match key with
      | "dirs" => return { t with dirs := some (← texts v) }
      | "static_templates" => return { t with templates := some (← texts v) }
      | _ => skip v; return t)
    ⟨none, none⟩

/-- The settings of a document. -/
def settings (entries : List (String × Value)) : Except TypeFault WrittenSettings :=
  entries.foldlM
    (fun s (key, v) => do
      match key with
      | "site_name" => return { s with siteName := ← text v }
      | "strict" => return { s with strict := ← truth v }
      | "docs" => return { s with docs := ← docs v }
      | "theme" => return { s with theme := ← theme v }
      | _ => skip v; return s)
    ⟨defaultSiteName, false, ⟨none, none, none, none, none⟩, ⟨none, none⟩⟩

end Decode
end DocSite
