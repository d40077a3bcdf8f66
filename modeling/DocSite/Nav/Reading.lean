import DocSite.Catalog
import DocSite.Nav.Arrangement
import DocSite.Nav.Navigation

/-!
# Reading a specification against a catalog

A leaf that names a file becomes its page, any other leaf a link; a titled list
or mapping becomes a section.  In the catalog each file is given the first page
that is made for it, so that whoever renders a file knows its page.

A specification is read once, from left to right, and what has been made stays
made when a later part is refused: the draft that a refusal leaves behind holds
the pages of everything before it.

Numbers are given out in the order of the reading.  A section gets its number
when it is complete, so the sections inside it have smaller ones.

## Reading and arranging

`convert` decides what a shape stands for and makes the parts in one pass.
`follows_convert` takes the two apart: if the specification has an arrangement,
reading it is the same as making the parts of its arrangement (`placeAll`), and
otherwise it ends with the same refusal.  So whatever is to be said of an
accepted specification is said by induction on entries, where nothing fails.
-/

namespace DocSite
namespace Nav

/-- What has been made while a specification is read, each table in the order of
the numbers. -/
structure Draft where
  catalog : Catalog
  pages : List Page
  sections : List Section
  links : List Link

/-- Making parts: it adds to a draft, and it reports. -/
abbrev Drafting := StateT Draft Journal

/-- Reading a specification: it may be refused as well. -/
abbrev Reading := ExceptT SpecError Drafting

/-- The name that a leaf looks up in a catalog. -/
def targetUri (target : String) : String :=
  (Path.mk target).normalize.portable

namespace Drafting

/-- A report made while drafting. -/
def report (e : Event) : Drafting Unit :=
  StateT.lift (Journal.report e)

/-- A leaf: a page if the catalog has the file, a link otherwise. -/
def leaf (factory : PageFactory) (title : Option String) (target : String) : Drafting Item := do
  let draft ← get
  let id : PageId := ⟨draft.pages.length⟩
  match draft.catalog.attach (targetUri target) id with
  | (none, catalog) =>
    set { draft with catalog, links := draft.links ++ [⟨title, target, none⟩] : Draft }
    return Item.ofLink ⟨draft.links.length⟩
  | (some f, catalog) =>
    set { draft with catalog, pages := draft.pages ++ [factory title f] }
    unless f.page.isNone do report (.repeatedPage f.srcUri)
    return Item.ofPage id

/-- A section around items that are complete. -/
def addSection (title : String) (children : List Item) : Drafting Item := do
  let draft ← get
  set { draft with sections := draft.sections ++ [⟨title, children, none, false⟩] : Draft }
  return Item.ofSection ⟨draft.sections.length⟩

mutual
/-- The parts of an entry. -/
def place (factory : PageFactory) : Entry → Drafting Item
  | .leaf title target => leaf factory title target
  | .group title entries => do addSection title (← placeAll factory entries)

/-- The parts of a row of entries, in order. -/
def placeAll (factory : PageFactory) : List Entry → Drafting (List Item)
  | [] => return []
  | e :: rest => do
    let first ← place factory e
    return first :: (← placeAll factory rest)
end

/-- The parts of an entry and the draft that they are made in. -/
def placed (factory : PageFactory) (e : Entry) (draft : Draft) : Item × Draft :=
  ((place factory e).run draft).value

/-- The parts of a row of entries and the draft that they are made in. -/
def placedAll (factory : PageFactory) (entries : List Entry) (draft : Draft) :
    List Item × Draft :=
  ((placeAll factory entries).run draft).value

theorem placed_leaf (factory : PageFactory) (title : Option String) (target : String)
    (draft : Draft) :
    placed factory (.leaf title target) draft =
      match draft.catalog.attach (targetUri target) ⟨draft.pages.length⟩ with
      | (none, catalog) => (.ofLink ⟨draft.links.length⟩,
          { draft with catalog, links := draft.links ++ [⟨title, target, none⟩] })
      | (some f, catalog) => (.ofPage ⟨draft.pages.length⟩,
          { draft with catalog, pages := draft.pages ++ [factory title f] }) := by
  rw [placed, place, leaf]
  rcases hfound : draft.catalog.attach (targetUri target) ⟨draft.pages.length⟩ with
    ⟨_ | f, catalog⟩
  · simp [hfound]
  · cases hpage : f.page <;> simp [hfound, hpage, report]

theorem placed_group (factory : PageFactory) (title : String) (entries : List Entry)
    (draft : Draft) :
    placed factory (.group title entries) draft =
      let (children, made) := placedAll factory entries draft
      (.ofSection ⟨made.sections.length⟩,
        { made with sections := made.sections ++ [⟨title, children, none, false⟩] }) := by
  rw [placed, place]
  simp [placedAll, addSection]

@[simp] theorem placedAll_nil (factory : PageFactory) (draft : Draft) :
    placedAll factory [] draft = ([], draft) := by
  simp [placedAll, placeAll]

theorem placedAll_cons (factory : PageFactory) (e : Entry) (rest : List Entry) (draft : Draft) :
    placedAll factory (e :: rest) draft =
      let (item, made) := placed factory e draft
      let (items, made) := placedAll factory rest made
      (item :: items, made) := by
  simp [placedAll, placeAll, placed]

/-- Every section of a draft holds only sections of smaller numbers, and no
section has been told yet what is around it. -/
structure Sound (draft : Draft) : Prop where
  descending : Descending draft.sections
  apart : ∀ s ∈ draft.sections, s.parent = none

/-- A complete section goes behind the sections of a draft. -/
theorem Sound.addSection {draft : Draft} (h : Sound draft) (title : String) {children : List Item}
    (hchildren : ∀ item ∈ children, item.rank ≤ draft.sections.length) :
    Sound { draft with sections := draft.sections ++ [⟨title, children, none, false⟩] } where
  descending := by
    intro n s hs
    rw [List.getElem?_append] at hs
    split at hs
    · exact h.descending n s hs
    · rename_i hlength
      obtain ⟨rfl, hn⟩ : s = ⟨title, children, none, false⟩ ∧ n = draft.sections.length := by
        rw [List.getElem?_singleton] at hs
        split at hs
        · exact ⟨(Option.some.inj hs).symm, by omega⟩
        · simp at hs
      rw [hn]
      exact hchildren
  apart := by
    intro s hs
    rcases List.mem_append.1 hs with hs | hs
    · exact h.apart s hs
    · rw [List.mem_singleton.1 hs]

mutual
theorem sound_placed (factory : PageFactory) : ∀ (e : Entry) {draft : Draft}, Sound draft →
    Sound (placed factory e draft).2 ∧
      draft.sections.length ≤ (placed factory e draft).2.sections.length ∧
      (placed factory e draft).1.rank ≤ (placed factory e draft).2.sections.length
  | .leaf title target, draft, h => by
    rw [placed_leaf]
    split
    · exact ⟨⟨h.descending, h.apart⟩, Nat.le_refl _, Nat.zero_le _⟩
    · exact ⟨⟨h.descending, h.apart⟩, Nat.le_refl _, Nat.zero_le _⟩
  | .group title entries, draft, h => by
    obtain ⟨hsound, hlength, hchildren⟩ := sound_placedAll factory entries h
    rw [placed_group]
    refine ⟨hsound.addSection title hchildren, ?_, ?_⟩
    · simp
      omega
    · simp [Item.rank]

theorem sound_placedAll (factory : PageFactory) : ∀ (entries : List Entry) {draft : Draft},
    Sound draft → Sound (placedAll factory entries draft).2 ∧
      draft.sections.length ≤ (placedAll factory entries draft).2.sections.length ∧
      ∀ item ∈ (placedAll factory entries draft).1,
        item.rank ≤ (placedAll factory entries draft).2.sections.length
  | [], draft, h => by simpa using h
  | e :: rest, draft, h => by
    obtain ⟨hsound, hlength, hfirst⟩ := sound_placed factory e h
    obtain ⟨hsound', hlength', hrest⟩ := sound_placedAll factory rest hsound
    rw [placedAll_cons]
    refine ⟨hsound', Nat.le_trans hlength hlength', ?_⟩
    intro item hitem
    rcases List.mem_cons.1 hitem with rfl | hitem
    · exact Nat.le_trans hfirst hlength'
    · exact hrest item hitem
end

end Drafting

open Drafting

namespace Reading

mutual
/-- The items that a value stands for. -/
def convert (factory : PageFactory) (location : List Step) : Spec → Reading (List Item)
  | .leaf target => do return [← leaf factory none target]
  | .mapping entries => convertEntries factory location entries
  | .list items => convertItems factory location 0 items

/-- The items that the entries of a mapping stand for, in order. -/
def convertEntries (factory : PageFactory) (location : List Step) :
    List (String × Spec) → Reading (List Item)
  | [] => return []
  | (title, value) :: rest => do
    let first ← convertEntry factory location title value
    return first :: (← convertEntries factory location rest)

/-- A titled entry: a leaf with a title, or a section. -/
def convertEntry (factory : PageFactory) (location : List Step) (title : String) :
    Spec → Reading Item
  | .leaf target => leaf factory (some title) target
  | .mapping entries => do
    addSection title (← convertEntries factory (location ++ [.title title]) entries)
  | .list items => do
    addSection title (← convertItems factory (location ++ [.title title]) 0 items)

/-- The items that the items of a list stand for, the first of which has a given
index. -/
def convertItems (factory : PageFactory) (location : List Step) (n : Nat) :
    List Spec → Reading (List Item)
  | [] => return []
  | .leaf target :: rest => do
    let first ← leaf factory none target
    return first :: (← convertItems factory location (n + 1) rest)
  | .mapping [(title, value)] :: rest => do
    let first ← convertEntry factory (location ++ [.index n]) title value
    return first :: (← convertItems factory location (n + 1) rest)
  | .mapping entries :: _ =>
    throw (.ambiguousEntry (location ++ [.index n]) (entries.map Prod.fst))
  | .list _ :: _ => throw (.nestedList (location ++ [.index n]))
end

/-! ## Reading is arranging and then making -/

/-- A reading goes with an arranging: where the arranging succeeds, the reading
makes what the arrangement asks for, and where it is refused, the reading is
refused for the same reason, whatever it has made until then. -/
def Follows {α β : Type} (reading : Reading α) (arranging : Except SpecError β)
    (make : β → Drafting α) : Prop :=
  match arranging with
  | .ok b => reading.run = Except.ok <$> make b
  | .error refusal => ∃ begun : Drafting Unit, reading.run = (do begun; return .error refusal)

theorem follows_nil (factory : PageFactory) :
    Follows (pure [] : Reading (List Item)) (.ok []) (placeAll factory) := by
  simp [Follows, placeAll]

theorem follows_leaf (factory : PageFactory) (title : Option String) (target : String) :
    Follows (leaf factory title target : Reading Item) (.ok (.leaf title target))
      (place factory) := by
  simp [Follows, place]

theorem follows_addSection {factory : PageFactory} {reading : Reading (List Item)}
    {arranging : Except SpecError (List Entry)}
    (h : Follows reading arranging (placeAll factory)) (title : String) :
    Follows (do addSection title (← reading)) (do return .group title (← arranging))
      (place factory) := by
  cases arranging with
  | ok entries =>
    have hrun : reading.run = Except.ok <$> placeAll factory entries := h
    show ExceptT.run _ = Except.ok <$> place factory (.group title entries)
    simp [ExceptT.run_bind, hrun, place]
  | error refusal =>
    obtain ⟨begun, hrun⟩ : ∃ begun : Drafting Unit, reading.run = _ := h
    exact ⟨begun, by simp [ExceptT.run_bind, hrun]⟩

theorem follows_cons {factory : PageFactory} {first : Reading Item} {rest : Reading (List Item)}
    {arrangingFirst : Except SpecError Entry} {arrangingRest : Except SpecError (List Entry)}
    (hfirst : Follows first arrangingFirst (place factory))
    (hrest : Follows rest arrangingRest (placeAll factory)) :
    Follows (do let item ← first; return item :: (← rest))
      (do let e ← arrangingFirst; return e :: (← arrangingRest)) (placeAll factory) := by
  cases arrangingFirst with
  | ok e =>
    have hrunFirst : first.run = Except.ok <$> place factory e := hfirst
    cases arrangingRest with
    | ok entries =>
      have hrunRest : rest.run = Except.ok <$> placeAll factory entries := hrest
      show ExceptT.run _ = Except.ok <$> placeAll factory (e :: entries)
      simp [ExceptT.run_bind, hrunFirst, hrunRest, placeAll, Except.map]
    | error refusal =>
      obtain ⟨begun, hrunRest⟩ : ∃ begun : Drafting Unit, rest.run = _ := hrest
      refine ⟨do let _ ← place factory e; begun, ?_⟩
      simp [ExceptT.run_bind, hrunFirst, hrunRest, Except.map]
  | error refusal =>
    obtain ⟨begun, hrunFirst⟩ : ∃ begun : Drafting Unit, first.run = _ := hfirst
    exact ⟨begun, by simp [ExceptT.run_bind, hrunFirst]⟩

mutual
/-- **Reading goes with arranging.** -/
theorem follows_convert (factory : PageFactory) (location : List Step) : ∀ spec : Spec,
    Follows (convert factory location spec) (arrange location spec) (placeAll factory)
  | .leaf target => by
    rw [convert, arrange]
    exact follows_cons (follows_leaf factory none target) (follows_nil factory)
  | .mapping entries => follows_convertEntries factory location entries
  | .list items => follows_convertItems factory location 0 items

theorem follows_convertEntries (factory : PageFactory) (location : List Step) :
    ∀ entries : List (String × Spec), Follows (convertEntries factory location entries)
      (arrangeEntries location entries) (placeAll factory)
  | [] => by
    rw [convertEntries, arrangeEntries]
    exact follows_nil factory
  | (title, value) :: rest => by
    rw [convertEntries, arrangeEntries]
    exact follows_cons (follows_convertEntry factory location title value)
      (follows_convertEntries factory location rest)

theorem follows_convertEntry (factory : PageFactory) (location : List Step) (title : String) :
    ∀ value : Spec, Follows (convertEntry factory location title value)
      (arrangeEntry location title value) (place factory)
  | .leaf target => follows_leaf factory (some title) target
  | .mapping entries => by
    rw [convertEntry, arrangeEntry]
    exact follows_addSection (follows_convertEntries factory _ entries) title
  | .list items => by
    rw [convertEntry, arrangeEntry]
    exact follows_addSection (follows_convertItems factory _ 0 items) title

theorem follows_convertItems (factory : PageFactory) (location : List Step) (n : Nat) :
    ∀ items : List Spec, Follows (convertItems factory location n items)
      (arrangeItems location n items) (placeAll factory)
  | [] => by
    rw [convertItems, arrangeItems]
    exact follows_nil factory
  | .leaf target :: rest => by
    rw [convertItems, arrangeItems]
    exact follows_cons (follows_leaf factory none target)
      (follows_convertItems factory location (n + 1) rest)
  | .mapping [(title, value)] :: rest => by
    rw [convertItems, arrangeItems]
    exact follows_cons (follows_convertEntry factory _ title value)
      (follows_convertItems factory location (n + 1) rest)
  | .mapping [] :: rest => ⟨pure (), by simp [convertItems]⟩
  | .mapping (_ :: _ :: _) :: rest => ⟨pure (), by simp [convertItems]⟩
  | .list _ :: rest => ⟨pure (), by simp [convertItems]⟩
end

/-- An accepted specification is read into the parts of its arrangement. -/
theorem value_convert {factory : PageFactory} {location : List Step} {spec : Spec}
    {entries : List Entry} (h : arrange location spec = .ok entries) (draft : Draft) :
    ((convert factory location spec).run.run draft).value =
      (.ok (placedAll factory entries draft).1, (placedAll factory entries draft).2) := by
  have hfollows := follows_convert factory location spec
  rw [h] at hfollows
  have hrun : (convert factory location spec).run = Except.ok <$> placeAll factory entries :=
    hfollows
  simp [hrun, placedAll]

/-- A refused specification is refused for the reason for which it has no
arrangement. -/
theorem fst_value_convert (factory : PageFactory) {location : List Step} {spec : Spec}
    {refusal : SpecError} (h : arrange location spec = .error refusal) (draft : Draft) :
    ((convert factory location spec).run.run draft).value.1 = .error refusal := by
  have hfollows := follows_convert factory location spec
  rw [h] at hfollows
  obtain ⟨begun, hrun⟩ : ∃ begun : Drafting Unit, (convert factory location spec).run = _ :=
    hfollows
  simp [hrun]

theorem arrange_of_value_convert {factory : PageFactory} {location : List Step} {spec : Spec}
    {draft made : Draft} {items : List Item}
    (h : ((convert factory location spec).run.run draft).value = (.ok items, made)) :
    ∃ entries, arrange location spec = .ok entries ∧
      placedAll factory entries draft = (items, made) := by
  cases harrange : arrange location spec with
  | error refusal =>
    have hfst := fst_value_convert factory harrange draft
    rw [h] at hfst
    exact absurd hfst (by simp)
  | ok entries =>
    rw [value_convert harrange, Prod.mk.injEq, Except.ok.injEq] at h
    exact ⟨entries, rfl, Prod.ext h.1 h.2⟩

end Reading
end Nav
end DocSite
