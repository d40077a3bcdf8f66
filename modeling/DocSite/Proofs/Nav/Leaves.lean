import DocSite.Proofs.Nav.Arranging
import DocSite.Proofs.Nav.Drafting

/-!
# The leaves of a specification

Whatever its shapes stand for, a specification has leaves from left to right, and
an accepted one keeps them when it is arranged (`targetsAll_of_arrange`).  Each
leaf looks up one name.  The pages that are made for a row of entries are those
of the names that the catalog has, in the order of the leaves and as often as
they are named (`srcUris_pages_placedAll`); every other leaf becomes a link.
-/

namespace DocSite
namespace Nav

namespace Spec

mutual
/-- The targets of the leaves of a specification, from left to right. -/
def targets : Spec → List String
  | .leaf target => [target]
  | .list items => targetsOfItems items
  | .mapping entries => targetsOfEntries entries

/-- The targets of the leaves of the items of a list. -/
def targetsOfItems : List Spec → List String
  | [] => []
  | item :: rest => item.targets ++ targetsOfItems rest

/-- The targets of the leaves of the entries of a mapping. -/
def targetsOfEntries : List (String × Spec) → List String
  | [] => []
  | (_, value) :: rest => value.targets ++ targetsOfEntries rest
end

end Spec

namespace Entry

mutual
/-- The targets of the leaves of an entry, from left to right. -/
def targets : Entry → List String
  | .leaf _ target => [target]
  | .group _ entries => targetsAll entries

/-- The targets of the leaves of a row of entries, from left to right. -/
def targetsAll : List Entry → List String
  | [] => []
  | e :: rest => e.targets ++ targetsAll rest
end

end Entry

/-! ## Arranging keeps the leaves -/

theorem Entry.targetsAll_append (entries others : List Entry) :
    targetsAll (entries ++ others) = targetsAll entries ++ targetsAll others := by
  induction entries with
  | nil => rfl
  | cons e rest ih => rw [List.cons_append, targetsAll, targetsAll, ih, List.append_assoc]

namespace Spec

mutual
/-- What a specification stands for has its leaves. -/
theorem targetsAll_entries : ∀ spec : Spec, Entry.targetsAll spec.entries = spec.targets
  | .leaf _ => rfl
  | .list items => targetsAll_entriesOfItems items
  | .mapping members => targetsAll_entriesOfMembers members

theorem targetsAll_entriesOfItems : ∀ items : List Spec,
    Entry.targetsAll (entriesOfItems items) = targetsOfItems items
  | [] => rfl
  | item :: rest => by
    rw [entriesOfItems, targetsOfItems, Entry.targetsAll_append, targetsAll_entries item,
      targetsAll_entriesOfItems rest]

theorem targetsAll_entriesOfMembers : ∀ members : List (String × Spec),
    Entry.targetsAll (entriesOfMembers members) = targetsOfEntries members
  | [] => rfl
  | (title, value) :: rest => by
    rw [entriesOfMembers, targetsOfEntries, Entry.targetsAll, targets_titledEntry title value,
      targetsAll_entriesOfMembers rest]

theorem targets_titledEntry (title : String) : ∀ value : Spec,
    (value.titledEntry title).targets = value.targets
  | .leaf _ => rfl
  | .list items => targetsAll_entriesOfItems items
  | .mapping members => targetsAll_entriesOfMembers members
end

end Spec

theorem targetsAll_of_arrange {location : List Step} (spec : Spec) {entries : List Entry}
    (h : arrange location spec = .ok entries) : Entry.targetsAll entries = spec.targets := by
  rw [entries_of_arrange spec h, Spec.targetsAll_entries]

/-! ## The pages that are made for leaves -/

namespace Drafting

variable {factory : PageFactory} {α : Type}

mutual
/-- What is read off the pages that are made for an entry, if it follows from the names of
their files. -/
theorem map_pages_placed (read : Page → α) (ofName : String → α)
    (hread : ∀ title f, read (factory title f) = ofName f.srcUri) :
    ∀ (e : Entry) (draft : Draft),
      (placed factory e draft).2.pages.map read = draft.pages.map read ++
        ((e.targets.map targetUri).filter (· ∈ draft.catalog.srcUris)).map ofName
  | .leaf title target, draft => by
    rw [placed_leaf, Entry.targets]
    split
    · have hname := Catalog.notMem_of_attach_eq_none ‹_›
      simp [hname]
    · rename_i f catalog hattach
      obtain ⟨hf, hname⟩ := Catalog.mem_of_attach_eq_some hattach
      have hmem : targetUri target ∈ draft.catalog.srcUris := List.mem_map.2 ⟨f, hf, hname⟩
      simp [hmem, hread, hname]
  | .group title entries, draft => by
    rw [placed_group, Entry.targets]
    exact map_pages_placedAll read ofName hread entries draft

theorem map_pages_placedAll (read : Page → α) (ofName : String → α)
    (hread : ∀ title f, read (factory title f) = ofName f.srcUri) :
    ∀ (entries : List Entry) (draft : Draft),
      (placedAll factory entries draft).2.pages.map read = draft.pages.map read ++
        (((Entry.targetsAll entries).map targetUri).filter (· ∈ draft.catalog.srcUris)).map ofName
  | [], draft => by simp [Entry.targetsAll]
  | e :: rest, draft => by
    have hnames := (grows_placed factory e draft).srcUris
    rw [placedAll_cons, Entry.targetsAll, List.map_append, List.filter_append, List.map_append,
      ← List.append_assoc, ← map_pages_placed read ofName hread e draft]
    simp only
    rw [map_pages_placedAll read ofName hread rest, hnames]
end

theorem srcUris_pages_placedAll (hfactory : ∀ title f, (factory title f).srcUri = f.srcUri)
    (entries : List Entry) (draft : Draft) :
    (placedAll factory entries draft).2.pages.map Page.srcUri = draft.pages.map Page.srcUri ++
      ((Entry.targetsAll entries).map targetUri).filter (· ∈ draft.catalog.srcUris) := by
  rw [map_pages_placedAll Page.srcUri id hfactory, List.map_id]

/-- However pages are made, there is one for every leaf that names a file. -/
theorem length_pages_placedAll (factory : PageFactory) (entries : List Entry) (draft : Draft) :
    (placedAll factory entries draft).2.pages.length = draft.pages.length +
      (((Entry.targetsAll entries).map targetUri).filter (· ∈ draft.catalog.srcUris)).length := by
  simpa using congrArg List.length
    (map_pages_placedAll (fun _ => ()) (fun _ => ()) (fun _ _ => rfl) entries draft)

end Drafting
end Nav
end DocSite
