import DocSite.Proofs.Nav.Attachment

/-!
# When a specification is refused, and what a refusal leaves behind

Only the items of lists can be at fault: a mapping that has not exactly one title,
and a list without a title.  Everywhere else every shape is welcome, so whether a
mapping is at fault depends on where it stands, not on what it is.

`Spec.items` lists the items of all lists in a specification, each before what
stands in it, with the way that leads to it; `Spec.Has` says the same without an
order (`mem_items_iff`).  Arranging goes through the items in this order and is
refused at the first that is at fault (`refusalOf_arrange`), and so is a build.

A refusal comes when some pages have been attached already.  Their files are the
files of the catalog but for their pages, since a draft that is begun grows like any
other (`Drafting.Keeps.convert`), and the pages are taken away at the end.  So nothing is
left of the reading, nor of what was attached before it (`build_refused_iff`).
-/

namespace DocSite

variable {ε α β γ : Type}

/-- Why a step is refused, if it is. -/
def refusalOf : Except ε α → Option ε
  | .ok _ => none
  | .error refusal => some refusal

theorem refusalOf_eq_some_iff {x : Except ε α} {refusal : ε} :
    refusalOf x = some refusal ↔ x = .error refusal := by
  cases x <;> simp [refusalOf]

/-- Of two steps that do not depend on one another, the first refusal counts. -/
theorem refusalOf_both (x : Except ε α) (y : Except ε β) (f : α → β → γ) :
    refusalOf (do let a ← x; return f a (← y)) = (refusalOf x).or (refusalOf y) := by
  cases x <;> cases y <;> rfl

theorem refusalOf_return (x : Except ε α) (f : α → β) :
    refusalOf (do return f (← x)) = refusalOf x := by
  cases x <;> rfl

namespace Nav

/-! ## The items of lists -/

namespace Spec

/-- What stands in a specification, and the indices and titles that lead there. -/
inductive Has : Spec → List Step → Spec → Prop where
  | here (spec : Spec) : Has spec [] spec
  | item {items : List Spec} {n : Nat} {item inner : Spec} {way : List Step} :
    items[n]? = some item → Has item way inner → Has (.list items) (.index n :: way) inner
  | value {entries : List (String × Spec)} {title : String} {value inner : Spec}
    {way : List Step} :
    (title, value) ∈ entries → Has value way inner →
      Has (.mapping entries) (.title title :: way) inner

mutual
/-- The items of the lists in a specification that stands at the end of a way, in
order and each before what stands in it, with the ways that lead to them. -/
def items (way : List Step) : Spec → List (List Step × Spec)
  | .leaf _ => []
  | .mapping entries => itemsOfEntries way entries
  | .list items => itemsOfItems way 0 items

/-- The items of the lists in the entries of a mapping. -/
def itemsOfEntries (way : List Step) : List (String × Spec) → List (List Step × Spec)
  | [] => []
  | (title, value) :: rest => value.items (way ++ [.title title]) ++ itemsOfEntries way rest

/-- The items of a list, the first of which has a given index, each followed by
the items of the lists in it. -/
def itemsOfItems (way : List Step) (n : Nat) : List Spec → List (List Step × Spec)
  | [] => []
  | item :: rest =>
    (way ++ [.index n], item) :: item.items (way ++ [.index n]) ++ itemsOfItems way (n + 1) rest
end

/-- What a list item is refused for, if it is: it stands for one entry when it is
a leaf or has one title. -/
def fault? (way : List Step) : Spec → Option SpecError
  | .leaf _ | .mapping [_] => none
  | .mapping entries => some (.ambiguousEntry way (entries.map Prod.fst))
  | .list _ => some (.nestedList way)

/-- The first fault of a specification. -/
def firstFault? (way : List Step) (spec : Spec) : Option SpecError :=
  (spec.items way).findSome? fun found => found.2.fault? found.1

/-- Whether a way ends at the item of a list. -/
def EndsAtItem (way : List Step) : Prop :=
  ∃ front n, way = front ++ [.index n]

theorem not_endsAtItem_nil : ¬ EndsAtItem [] := by
  rintro ⟨front, n, h⟩
  simp at h

theorem endsAtItem_cons_iff {step : Step} {way : List Step} :
    EndsAtItem (step :: way) ↔ (way = [] ∧ ∃ n, step = .index n) ∨ EndsAtItem way := by
  constructor
  · rintro ⟨front, n, h⟩
    rcases List.cons_eq_append_iff.1 h with ⟨rfl, hlast⟩ | ⟨rest, rfl, hway⟩
    · obtain ⟨rfl, rfl⟩ := List.cons.inj hlast
      exact .inl ⟨rfl, n, rfl⟩
    · exact .inr ⟨rest, n, hway⟩
  · rintro (⟨rfl, n, rfl⟩ | ⟨front, n, rfl⟩)
    · exact ⟨[], n, rfl⟩
    · exact ⟨step :: front, n, rfl⟩

theorem endsAtItem_title_cons_iff {title : String} {way : List Step} :
    EndsAtItem (.title title :: way) ↔ EndsAtItem way := by
  simp [endsAtItem_cons_iff]

mutual
/-- The items that are listed are those that stand in a list. -/
theorem mem_items_iff (way : List Step) (place : List Step) (inner : Spec) : ∀ spec : Spec,
    (place, inner) ∈ spec.items way ↔
      ∃ inside, place = way ++ inside ∧ EndsAtItem inside ∧ spec.Has inside inner
  | .leaf target => by
    refine ⟨by simp [items], ?_⟩
    rintro ⟨inside, -, hends, hhas⟩
    cases hhas
    exact absurd hends not_endsAtItem_nil
  | .mapping entries => by
    rw [items, mem_itemsOfEntries_iff way place inner entries]
    constructor
    · rintro ⟨title, value, inside, hmem, hway, hends, hhas⟩
      exact ⟨.title title :: inside, hway, endsAtItem_title_cons_iff.2 hends, .value hmem hhas⟩
    · rintro ⟨inside, hway, hends, hhas⟩
      cases hhas with
      | here => exact absurd hends not_endsAtItem_nil
      | value hmem hhas =>
        exact ⟨_, _, _, hmem, hway, endsAtItem_title_cons_iff.1 hends, hhas⟩
  | .list members => by
    rw [items, mem_itemsOfItems_iff way 0 place inner members]
    constructor
    · rintro ⟨n, item, inside, hitem, hway, hends, hhas⟩
      rw [Nat.zero_add] at hway hends
      exact ⟨.index n :: inside, hway, hends, .item hitem hhas⟩
    · rintro ⟨inside, hway, hends, hhas⟩
      cases hhas with
      | here => exact absurd hends not_endsAtItem_nil
      | @item _ n _ _ _ hitem hhas =>
        exact ⟨n, _, _, hitem, by rwa [Nat.zero_add], by rwa [Nat.zero_add], hhas⟩

theorem mem_itemsOfEntries_iff (way : List Step) (place : List Step) (inner : Spec) :
    ∀ entries : List (String × Spec), (place, inner) ∈ itemsOfEntries way entries ↔
      ∃ title value inside, (title, value) ∈ entries ∧ place = way ++ .title title :: inside ∧
        EndsAtItem inside ∧ value.Has inside inner
  | [] => by simp [itemsOfEntries]
  | (title, value) :: rest => by
    rw [itemsOfEntries, List.mem_append, mem_items_iff _ place inner value,
      mem_itemsOfEntries_iff way place inner rest]
    constructor
    · rintro (⟨inside, hway, hends, hhas⟩ | ⟨title', value', inside, hmem, h⟩)
      · exact ⟨title, value, inside, List.mem_cons_self .., by simpa using hway, hends, hhas⟩
      · exact ⟨title', value', inside, List.mem_cons_of_mem _ hmem, h⟩
    · rintro ⟨title', value', inside, hmem, hway, hends, hhas⟩
      rcases List.mem_cons.1 hmem with heq | hmem
      · obtain ⟨rfl, rfl⟩ := Prod.mk.inj heq
        exact .inl ⟨inside, by simpa using hway, hends, hhas⟩
      · exact .inr ⟨title', value', inside, hmem, hway, hends, hhas⟩

theorem mem_itemsOfItems_iff (way : List Step) (n : Nat) (place : List Step) (inner : Spec) :
    ∀ members : List Spec, (place, inner) ∈ itemsOfItems way n members ↔
      ∃ k item inside, members[k]? = some item ∧ place = way ++ .index (n + k) :: inside ∧
        EndsAtItem (.index (n + k) :: inside) ∧ item.Has inside inner
  | [] => by simp [itemsOfItems]
  | item :: rest => by
    rw [itemsOfItems, List.mem_append, List.mem_cons, Prod.mk.injEq,
      mem_items_iff _ place inner item, mem_itemsOfItems_iff way (n + 1) place inner rest]
    constructor
    · rintro ((⟨rfl, rfl⟩ | ⟨inside, hway, hends, hhas⟩) |
        ⟨k, item', inside, hitem, hway, hends, hhas⟩)
      · exact ⟨0, inner, [], rfl, rfl, ⟨[], n, rfl⟩, .here inner⟩
      · exact ⟨0, item, inside, rfl, by simpa using hway, endsAtItem_cons_iff.2 (.inr hends), hhas⟩
      · have hshift : n + 1 + k = n + (k + 1) := by omega
        rw [hshift] at hway hends
        exact ⟨k + 1, item', inside, hitem, hway, hends, hhas⟩
    · rintro ⟨k, item', inside, hitem, hway, hends, hhas⟩
      cases k with
      | zero =>
        obtain rfl := Option.some.inj hitem
        rcases endsAtItem_cons_iff.1 hends with ⟨rfl, -⟩ | hends
        · cases hhas
          exact .inl (.inl ⟨hway, rfl⟩)
        · exact .inl (.inr ⟨inside, by simpa using hway, hends, hhas⟩)
      | succ k =>
        have hshift : n + (k + 1) = n + 1 + k := by omega
        rw [hshift] at hway hends
        exact .inr ⟨k, item', inside, hitem, hway, hends, hhas⟩
end

/-- A list item that stands for one entry. -/
def IsEntry : Spec → Prop
  | .leaf _ => True
  | .mapping entries => entries.length = 1
  | .list _ => False

theorem fault?_eq_none_iff (way : List Step) (item : Spec) :
    item.fault? way = none ↔ item.IsEntry := by
  rcases item with target | members | ⟨_ | ⟨entry, _ | ⟨next, rest⟩⟩⟩ <;> simp [fault?, IsEntry]

end Spec

/-! ## Arranging is refused at the first fault -/

open Spec Drafting

mutual
theorem refusalOf_arrange (way : List Step) : ∀ spec : Spec,
    refusalOf (arrange way spec) = spec.firstFault? way
  | .leaf target => by
    rw [arrange, firstFault?, items]
    rfl
  | .mapping entries => by
    rw [arrange, firstFault?, items, refusalOf_arrangeEntries way entries]
  | .list members => by
    rw [arrange, firstFault?, items, refusalOf_arrangeItems way 0 members]

theorem refusalOf_arrangeEntries (way : List Step) : ∀ entries : List (String × Spec),
    refusalOf (arrangeEntries way entries) =
      (itemsOfEntries way entries).findSome? fun found => found.2.fault? found.1
  | [] => by
    rw [arrangeEntries, itemsOfEntries]
    rfl
  | (title, value) :: rest => by
    rw [arrangeEntries, refusalOf_both, refusalOf_arrangeEntry way title value,
      refusalOf_arrangeEntries way rest, itemsOfEntries, List.findSome?_append, firstFault?]

/-- A value behind a title is at fault only in what stands in it. -/
theorem refusalOf_arrangeEntry (way : List Step) (title : String) : ∀ value : Spec,
    refusalOf (arrangeEntry way title value) = value.firstFault? (way ++ [.title title])
  | .leaf target => by
    rw [arrangeEntry, firstFault?, items]
    rfl
  | .mapping entries => by
    rw [arrangeEntry, refusalOf_return, refusalOf_arrangeEntries _ entries, firstFault?, items]
  | .list members => by
    rw [arrangeEntry, refusalOf_return, refusalOf_arrangeItems _ 0 members, firstFault?, items]

theorem refusalOf_arrangeItems (way : List Step) (n : Nat) : ∀ members : List Spec,
    refusalOf (arrangeItems way n members) =
      (itemsOfItems way n members).findSome? fun found => found.2.fault? found.1
  | [] => by
    rw [arrangeItems, itemsOfItems]
    rfl
  | .leaf target :: rest => by
    rw [arrangeItems, refusalOf_return, refusalOf_arrangeItems way (n + 1) rest, itemsOfItems]
    rfl
  | .mapping [(title, value)] :: rest => by
    rw [arrangeItems, refusalOf_both, refusalOf_arrangeEntry _ title value,
      refusalOf_arrangeItems way (n + 1) rest, itemsOfItems, List.findSome?_append, firstFault?,
      items, itemsOfEntries, itemsOfEntries, List.append_nil]
    rfl
  | .mapping [] :: rest => by
    rw [arrangeItems, itemsOfItems]
    · rfl
    · simp
  | .mapping (_ :: _ :: _) :: rest => by
    rw [arrangeItems, itemsOfItems]
    · rfl
    · simp
  | .list members :: rest => by
    rw [arrangeItems, itemsOfItems]
    rfl
end

/-! ## A refused build -/

/-- The way to the item that a specification is refused for. -/
def SpecError.way : SpecError → List Step
  | ambiguousEntry way _ | nestedList way => way

theorem way_of_fault? {way : List Step} {item : Spec} {refusal : SpecError}
    (h : item.fault? way = some refusal) : refusal.way = way := by
  rcases item with target | members | ⟨_ | ⟨entry, _ | ⟨next, rest⟩⟩⟩ <;>
    simp [fault?] at h <;> rw [← h, SpecError.way]

/-- A place is written as `nav` and the steps that lead to it. -/
theorem locationText_eq (way : List Step) :
    locationText way = "nav" ++ String.join (way.map fun step => " > " ++ step.label) := by
  have hjoin : ∀ (first : String) (labels : List String),
      String.intercalate " > " (first :: labels) =
        first ++ String.join (labels.map (" > " ++ ·)) := by
    intro first labels
    induction labels generalizing first with
    | nil => simp
    | cons label rest ih => rw [String.intercalate_cons_cons, ih]; simp [String.append_assoc]
  rw [locationText, hjoin, List.map_map]
  rfl

/-- A refusal is that of the first list item of a specification that stands for no
entry, and it tells the way to this item. -/
structure IsFirstFault (spec : Spec) (refusal : SpecError) : Prop where
  first : ∃ before item after, spec.items [] = before ++ (refusal.way, item) :: after ∧
    (∀ found ∈ before, found.2.IsEntry) ∧ item.fault? refusal.way = some refusal
  leads : ∃ item, EndsAtItem refusal.way ∧ spec.Has refusal.way item ∧ ¬ item.IsEntry
  text : locationText refusal.way =
    "nav" ++ String.join (refusal.way.map fun step => " > " ++ step.label)

theorem isFirstFault_of_firstFault? {spec : Spec} {refusal : SpecError}
    (h : spec.firstFault? [] = some refusal) : IsFirstFault spec refusal := by
  obtain ⟨before, ⟨way, item⟩, after, hitems, hfault, hbefore⟩ := List.findSome?_eq_some_iff.1 h
  obtain rfl : refusal.way = way := way_of_fault? hfault
  obtain ⟨inside, hinside, hends, hhas⟩ :=
    (mem_items_iff [] refusal.way item spec).1 (by simp [hitems])
  rw [List.nil_append] at hinside
  subst hinside
  exact {
    first := ⟨before, item, after, hitems,
      fun found hfound => (fault?_eq_none_iff _ _).1 (hbefore found hfound), hfault⟩
    leads := ⟨item, hends, hhas, fun hentry => by
      rw [(fault?_eq_none_iff _ _).2 hentry] at hfault
      exact absurd hfault (by simp)⟩
    text := locationText_eq _ }

theorem exists_firstFault?_iff (spec : Spec) : (∃ refusal, spec.firstFault? [] = some refusal) ↔
    ∃ way item, EndsAtItem way ∧ spec.Has way item ∧ ¬ item.IsEntry := by
  rw [← Option.isSome_iff_exists, firstFault?, List.findSome?_isSome_iff]
  constructor
  · rintro ⟨⟨way, item⟩, hmem, hfault⟩
    obtain ⟨inside, hinside, hends, hhas⟩ := (mem_items_iff [] way item spec).1 hmem
    obtain rfl : way = inside := hinside
    refine ⟨way, item, hends, hhas, fun hentry => ?_⟩
    rw [(fault?_eq_none_iff way item).2 hentry] at hfault
    exact absurd hfault (by simp)
  · rintro ⟨way, item, hends, hhas, hentry⟩
    refine ⟨(way, item), (mem_items_iff [] way item spec).2 ⟨way, rfl, hends, hhas⟩, ?_⟩
    rw [Option.isSome_iff_ne_none]
    exact fun hnone => hentry ((fault?_eq_none_iff way item).1 hnone)

variable (spec : Option Spec) (factory : PageFactory) (catalog : Catalog)

/-- A build is refused for the reason for which the arranging is. -/
theorem fst_value_build_eq_error_iff (refusal : SpecError) :
    (build spec factory catalog).value.1 = .error refusal ↔
      arrange [] (effectiveSpec spec catalog) = .error refusal := by
  rw [← effectiveSpec_detachAll]
  dsimp only [build]
  split
  · rename_i refusal' begun hread
    cases harrange : arrange [] (effectiveSpec spec catalog.detachAll) with
    | ok entries =>
      rw [Draft.start, Reading.value_convert harrange] at hread
      simp at hread
    | error refused =>
      have hfst := Reading.fst_value_convert factory harrange (Draft.start catalog)
      rw [Draft.start] at hread hfst
      rw [hread] at hfst
      simp_all
  · rename_i items made hread
    obtain ⟨entries, harrange, -⟩ := Reading.arrange_of_value_convert hread
    rw [Draft.start] at harrange
    simp [harrange]

/-- A refused build leaves the files as they were, without pages. -/
theorem files_of_fst_value_build {refusal : SpecError}
    (h : (build spec factory catalog).value.1 = .error refusal) :
    (build spec factory catalog).value.2.files = catalog.files.map SourceFile.detach := by
  dsimp only [build] at h ⊢
  split
  · rename_i refused begun hread
    have hgrows := (keeps_grows factory (Draft.start catalog)).convert []
      (effectiveSpec spec (Draft.start catalog).catalog) (Grows.refl _)
    rw [hread] at hgrows
    rw [Catalog.files_detachAll, hgrows.files, Draft.start, Catalog.map_detach_detachAll]
  · rename_i items made hread
    split at h
    · simp_all
    · simp at h

/-- **A build is refused exactly for a list item that stands for no entry**, and
for the first of them; and then the files are what they were, none with a page. -/
theorem build_refused_iff :
    ((∃ refusal, (build spec factory catalog).value.1 = .error refusal) ↔
      ∃ way item, EndsAtItem way ∧ (effectiveSpec spec catalog).Has way item ∧ ¬ item.IsEntry) ∧
    ∀ refusal, (build spec factory catalog).value.1 = .error refusal →
      IsFirstFault (effectiveSpec spec catalog) refusal ∧
        (build spec factory catalog).value.2.files = catalog.files.map SourceFile.detach := by
  have hfault : ∀ refusal, (build spec factory catalog).value.1 = .error refusal ↔
      (effectiveSpec spec catalog).firstFault? [] = some refusal := by
    intro refusal
    rw [fst_value_build_eq_error_iff, ← refusalOf_eq_some_iff, refusalOf_arrange]
  refine ⟨?_, fun refusal hrefused => ⟨isFirstFault_of_firstFault? ((hfault refusal).1 hrefused),
    files_of_fst_value_build spec factory catalog hrefused⟩⟩
  rw [← exists_firstFault?_iff]
  exact exists_congr hfault

/-- A document, and then a titled list in which an item has two titles and another
has none. -/
def faultySpec : Spec :=
  .list [.leaf "index.md", .entry "Guide" (.list [.leaf "guide/a.md",
    .mapping [("A", .leaf "b.md"), ("B", .leaf "logo.png")], .list [.leaf "b.md"]])]

/-- The refusal of the item with two titles. -/
def faultySpecRefusal : SpecError :=
  .ambiguousEntry [.index 1, .title "Guide", .index 1] ["A", "B"]

theorem isFirstFault_faultySpec :
    (build (some faultySpec) Page.ofFile (smallSite.attach "b.md" ⟨7⟩).2).value.1 =
        .error faultySpecRefusal ∧
      IsFirstFault faultySpec faultySpecRefusal ∧
      faultySpecRefusal.message = "Ambiguous nav entry at nav > [1] > Guide > [1]: " ++
        "a list item must map exactly one title, found keys A, B" ∧
      (build (some faultySpec) Page.ofFile (smallSite.attach "b.md" ⟨7⟩).2).value.2.files =
        smallSite.files := by
  have hrefused : (build (some faultySpec) Page.ofFile
      (smallSite.attach "b.md" ⟨7⟩).2).value.1 = .error faultySpecRefusal :=
    (fst_value_build_eq_error_iff _ _ _ _).2 rfl
  obtain ⟨hfault, hfiles⟩ := (build_refused_iff (some faultySpec) Page.ofFile
    (smallSite.attach "b.md" ⟨7⟩).2).2 _ hrefused
  refine ⟨hrefused, hfault, by decide +kernel, ?_⟩
  rw [hfiles]
  decide +kernel

end Nav
end DocSite
