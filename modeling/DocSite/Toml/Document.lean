import DocSite.Toml.Scalar

/-!
# Documents of a configuration

A document is a row of statements, one to a line: the head of a table, the head
of one more table in a list of tables, or a key with its value.  Keys may be
dotted, and so reach into tables.

Nothing may be said twice, and that takes more than looking whether a key is
there.  A table that stands under a head is complete when the next head comes,
and neither another head nor a dotted key may add to it.  A table that was only
passed through on the way to another head may still get a head of its own; it
moves to the end then, because that is where its statements stand.  A dotted key
may also pass through it, and then it counts as one that arose from a dotted key:
it may be added to by dotted keys, and by heads of tables inside it, but gets no
head.  A table in braces and a list in brackets are complete at once.  `Origin`
keeps these apart while a document is read, and is forgotten afterwards.

Lists and tables may be nested to a depth of eighty, and a key or head may have
eighty parts.
-/

namespace DocSite
namespace Toml

/-! ## Blanks, comments and keys -/

/-- A line break at the start of some characters. -/
def lineBreak? : List Char → Option (List Char)
  | '\n' :: rest => some rest
  | '\r' :: '\n' :: rest => some rest
  | _ => none

/-- Characters without the blanks at their start. -/
def skipBlanks (chars : List Char) : List Char :=
  chars.dropWhile fun c => c = ' ' ∨ c = '\t'

/-- Characters without the comment at their start, if there is one. -/
def skipComment? (chars : List Char) : Option (List Char) :=
  match chars with
  | '#' :: rest =>
    let comment := rest.takeWhile fun c => c ≠ '\n' ∧ c ≠ '\r'
    if comment.all isPlainChar then some (rest.drop comment.length) else none
  | chars => some chars

theorem length_skipBlanks_le (chars : List Char) : (skipBlanks chars).length ≤ chars.length :=
  (List.dropWhile_sublist _).length_le

theorem length_lt_of_lineBreak? {chars rest : List Char} (h : lineBreak? chars = some rest) :
    rest.length < chars.length := by
  unfold lineBreak? at h
  split at h
  · simp only [Option.some.injEq] at h
    simp [← h]
  · simp only [Option.some.injEq] at h
    simp only [← h, List.length_cons]
    omega
  · simp at h

theorem length_le_of_skipComment? {chars rest : List Char} (h : skipComment? chars = some rest) :
    rest.length ≤ chars.length := by
  unfold skipComment? at h
  split at h
  · dsimp only at h
    split at h
    · rw [← Option.some.inj h]
      simp only [List.length_drop, List.length_cons]
      omega
    · simp at h
  · exact Nat.le_of_eq (congrArg List.length (Option.some.inj h).symm)

/-- Characters without the blanks, comments and line breaks at their start. -/
def skipLines? (chars : List Char) : Option (List Char) :=
  match hcomment : skipComment? (skipBlanks chars) with
  | none => none
  | some rest =>
    match hbreak : lineBreak? rest with
    | none => some rest
    | some next =>
      have : next.length < chars.length :=
        Nat.lt_of_lt_of_le (length_lt_of_lineBreak? hbreak)
          (Nat.le_trans (length_le_of_skipComment? hcomment) (length_skipBlanks_le chars))
      skipLines? next
termination_by chars.length

/-- The characters of a key without quotation marks. -/
def isBareChar (c : Char) : Bool :=
  c.isAlphanum || c == '-' || c == '_'

/-- One part of a key, and what follows it. -/
def keyPart? (chars : List Char) : Option (String × List Char) :=
  match text? false chars with
  | some found => some found
  | none =>
    let bare := chars.takeWhile isBareChar
    if bare.isEmpty then none else some (String.ofList bare, chars.dropWhile isBareChar)

/-- A key with its dots, and what follows it and the blanks behind it. -/
def key? (chars : List Char) : Option (List String × List Char) := do
  let (part, rest) ← keyPart? (skipBlanks chars)
  match skipBlanks rest with
  | '.' :: rest =>
    if rest.length < chars.length then
      let (parts, rest) ← key? rest
      return (part :: parts, rest)
    else none
  | rest => return ([part], rest)
termination_by chars.length

/-! ## Tables while they are read -/

/-- How a table came to be. -/
inductive Origin where
  /-- It was passed through on the way to the head of another. -/
  | passed
  /-- It was passed through by a dotted key. -/
  | dotted
  /-- It has a head. -/
  | headed
  deriving DecidableEq, Repr

/-- What stands under a key while a document is read. -/
inductive Slot where
  /-- A value that is complete. -/
  | value (v : Value)
  | table (origin : Origin) (entries : List (String × Slot))
  /-- A list of tables with heads, the last of which is not complete. -/
  | tables (elements : List (List (String × Slot)))
  deriving Inhabited

/-- The slots of a table in order. -/
abbrev Slots := List (String × Slot)

mutual
/-- The value of a slot. -/
def Slot.toValue : Slot → Value
  | .value v => v
  | .table _ entries => .table (valuesOf entries)
  | .tables elements => .array (tablesOf elements)

/-- The entries of a table. -/
def valuesOf : Slots → List (String × Value)
  | [] => []
  | (key, slot) :: rest => (key, slot.toValue) :: valuesOf rest

/-- The elements of a list of tables. -/
def tablesOf : List Slots → List Value
  | [] => []
  | entries :: rest => .table (valuesOf entries) :: tablesOf rest
end

/-- Slots with one of them replaced, or added at the end. -/
def setSlot (key : String) (slot : Slot) : Slots → Slots
  | [] => [(key, slot)]
  | (other, old) :: rest =>
    if other = key then (other, slot) :: rest else (other, old) :: setSlot key slot rest

/-- How deep lists and tables may be nested, and how many parts a key may have. -/
def depthLimit : Nat := 80

/-- The table that a path leads to changed, together with how it came to be; the
tables on the way come to be if they are missing.  A dotted key must not pass
through a table that has a head, and leaves its mark on the others. -/
def alter? (dotted : Bool) (change : Origin → Slots → Option Slots) (origin : Origin) :
    List String → Slots → Option Slots
  | [], slots => change origin slots
  | key :: path, slots =>
    match slots.lookup key with
    | none => do
      let origin := if dotted then Origin.dotted else .passed
      return setSlot key (.table origin (← alter? dotted change origin path [])) slots
    | some (.value _) => none
    | some (.table origin entries) => do
      if dotted ∧ origin = .headed then none
      let origin := if dotted then Origin.dotted else origin
      return setSlot key (.table origin (← alter? dotted change origin path entries)) slots
    | some (.tables elements) => do
      let last ← elements.getLast?
      let changed ← alter? dotted change .headed path last
      return setSlot key (.tables (elements.dropLast ++ [changed])) slots

/-- The parts of a key before the last one, and the last one, of a key that has not
too many. -/
def splitKey? (key : List String) : Option (List String × String) :=
  if key.length ≤ depthLimit then key.getLast?.map fun last => (key.dropLast, last) else none

/-- A key with its value added to a table that has a head.  A dotted key adds
only to tables that arose from dotted keys, and any other only to one that did
not. -/
def addValue? (key : List String) (v : Value) (slots : Slots) : Option Slots := do
  let (path, last) ← splitKey? key
  let put (origin : Origin) (slots : Slots) : Option Slots :=
    if (origin = .dotted) = (path = []) then none
    else if (slots.lookup last).isSome then none
    else some (slots ++ [(last, .value v)])
  alter? true put .headed path slots

/-! ## Values -/

/-- The items of a list up to its end, by a reader of values. -/
def items? (value : List Char → Option (Value × List Char)) (chars : List Char) :
    Option (List Value × List Char) := do
  match ← skipLines? chars with
  | ']' :: rest => return ([], rest)
  | chars' =>
    let (item, rest) ← value chars'
    match ← skipLines? rest with
    | ',' :: rest =>
      if rest.length < chars.length then
        let (items, rest) ← items? value rest
        return (item :: items, rest)
      else none
    | ']' :: rest => return ([item], rest)
    | _ => none
termination_by chars.length

/-- The entries of a table in braces up to its end, by a reader of values, added
to those before. -/
def entries? (value : List Char → Option (Value × List Char)) (slots : Slots)
    (chars : List Char) : Option (Slots × List Char) := do
  match ← skipLines? chars with
  | '}' :: rest => return (slots, rest)
  | chars' =>
    let (key, rest) ← key? chars'
    let rest ← after? '=' (← skipLines? rest)
    let (v, rest) ← value (← skipLines? rest)
    let slots ← addValue? key v slots
    match ← skipLines? rest with
    | ',' :: rest =>
      if rest.length < chars.length then entries? value slots rest else none
    | '}' :: rest => return (slots, rest)
    | _ => none
termination_by chars.length

/-- A value at the start of some characters, and what follows it, when it may be
nested so deep. -/
def value? : Nat → List Char → Option (Value × List Char)
  | depth, '[' :: rest =>
    match depth with
    | 0 => none
    | depth + 1 => do
      let (items, rest) ← items? (value? depth) rest
      return (.array items, rest)
  | depth, '{' :: rest =>
    match depth with
    | 0 => none
    | depth + 1 => do
      let (slots, rest) ← entries? (value? depth) [] rest
      return (.table (valuesOf slots), rest)
  | _, chars =>
    match text? true chars with
    | some (text, rest) => some (.text text, rest)
    | none => do
      let (run, rest) := run chars
      return (← scalarOf? run, rest)

/-! ## Statements -/

/-- A line of a document. -/
inductive Statement where
  | head (path : List String)
  /-- The head of one more table in a list. -/
  | element (path : List String)
  | entry (key : List String) (v : Value)

/-- A statement at the start of some characters, and what follows it. -/
def statement? (chars : List Char) : Option (Statement × List Char) := do
  match chars with
  | '[' :: '[' :: rest =>
    let (path, rest) ← key? rest
    return (.element path, ← after? ']' (← after? ']' rest))
  | '[' :: rest =>
    let (path, rest) ← key? rest
    return (.head path, ← after? ']' rest)
  | chars =>
    let (key, rest) ← key? chars
    let (v, rest) ← value? depthLimit (skipBlanks (← after? '=' rest))
    return (.entry key v, rest)

/-- The statements of a document. -/
def statements? (chars : List Char) : Option (List Statement) := do
  match ← skipLines? chars with
  | [] => return []
  | chars' =>
    let (statement, rest) ← statement? chars'
    let rest ← skipComment? (skipBlanks rest)
    match rest with
    | [] => return [statement]
    | rest =>
      let rest ← lineBreak? rest
      if rest.length < chars.length then return statement :: (← statements? rest) else none
termination_by chars.length

/-- A document while it is read: what is complete, and the table under the last
head, with the way to it and whether it is an element of a list.  Before the
first head there is only that table, which is the whole document. -/
structure Reader where
  root : Slots
  current : Slots
  head : Option (Bool × List String)

namespace Reader

/-- The table under the last head put in its place. -/
def close? (r : Reader) : Option Slots :=
  match r.head with
  | none => some r.current
  | some (isElement, key) => do
    let (path, last) ← splitKey? key
    let put (_ : Origin) (slots : Slots) : Option Slots :=
      if isElement then
        match slots.lookup last with
        | none => some (slots ++ [(last, .tables [r.current])])
        | some (.tables elements) => some (setSlot last (.tables (elements ++ [r.current])) slots)
        | some _ => none
      else some (slots ++ [(last, .table .headed r.current)])
    alter? false put .headed path r.root

/-- A new head.  A table that was only passed through is taken up again, and one
that came to be otherwise must not be there. -/
def open? (root : Slots) (key : List String) : Option Reader := do
  let (path, last) ← splitKey? key
  let check (_ : Origin) (slots : Slots) : Option Slots :=
    match slots.lookup last with
    | none => some slots
    | some (.table .passed _) => some slots
    | some _ => none
  let root ← alter? false check .headed path root
  let (kept, taken) := takeUp path last root
  return ⟨kept, taken, some (false, key)⟩
where
  /-- The slots without the table at the end of a path, and the entries of that
  table. -/
  takeUp (path : List String) (last : String) (slots : Slots) : Slots × Slots :=
    match path with
    | [] =>
      match slots.lookup last with
      | some (.table _ entries) => (slots.filter fun s => s.1 ≠ last, entries)
      | _ => (slots, [])
    | key :: path =>
      match slots.lookup key with
      | some (.table origin entries) =>
        let (kept, taken) := takeUp path last entries
        (setSlot key (.table origin kept) slots, taken)
      | some (.tables elements) =>
        let (kept, taken) := takeUp path last (elements.getLast?.getD [])
        (setSlot key (.tables (elements.dropLast ++ [kept])) slots, taken)
      | _ => (slots, [])

/-- One more statement. -/
def step? (r : Reader) : Statement → Option Reader
  | .entry key v => do return { r with current := ← addValue? key v r.current }
  | .head path => do open? (← r.close?) path
  | .element path => do return ⟨← r.close?, [], some (true, path)⟩

end Reader

/-- The entries of the table that a text spells. -/
def document? (text : String) : Option (List (String × Value)) := do
  let chars :=
    match text.toList with
    | c :: rest => if c.toNat = 65279 then rest else c :: rest
    | [] => []
  let r ← (← statements? chars).foldlM Reader.step? ⟨[], [], none⟩
  return valuesOf (← r.close?)

end Toml
end DocSite
