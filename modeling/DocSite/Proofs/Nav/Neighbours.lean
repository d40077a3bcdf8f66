import DocSite.Proofs.Nav.Leaves
import DocSite.Proofs.Nav.Shape

/-!
# The chain of the pages

The last pass of a build goes through the reading order and tells each page the pages
before and after it, as far as there are such pages.  A page that stood in the order
twice would keep what it was told last.  But a finished navigation reads its pages in the
order of their numbers, so every page is told its neighbours once
(`neighbours_of_value_build`).

So the pages form one chain (`Navigation.IsChain`): whoever starts at the first page and
goes on to the next one reads every page of the navigation once and stops behind the last
(`chain_of_value_build`).  How a page goes on is described by a relation
(`Navigation.ReadsOn`) and not by a function, because tables of numbers alone would let a
reader go in circles; a row of pages that is read on in this way is finite.
-/

namespace DocSite
namespace Nav

/-- A page told the neighbours of a position in an order. -/
def Page.told (order : List PageId) (position : Nat) (p : Page) : Page :=
  { p with
    previous := if position = 0 then none else order[position - 1]?
    next := order[position + 1]? }

namespace Navigation

/-- When each listed page stands at the position of its number, the pages listed are told
the neighbours of their numbers, and the others nothing. -/
theorem getElem?_withNeighbours (order : List PageId) {listed : List (PageId × Nat)}
    (hlisted : ∀ entry ∈ listed, entry.1.index = entry.2) (pages : List Page) (n : Nat) :
    (withNeighbours order listed pages)[n]? =
      if (⟨n⟩, n) ∈ listed then pages[n]?.map (Page.told order n) else pages[n]? := by
  induction listed generalizing pages with
  | nil => simp [withNeighbours]
  | cons entry rest ih =>
    obtain ⟨id, position⟩ := entry
    obtain rfl : id.index = position := hlisted _ (List.mem_cons_self ..)
    have hrest := ih fun other hother => hlisted other (List.mem_cons_of_mem _ hother)
    rw [withNeighbours, hrest, List.getElem?_modify]
    by_cases hn : id.index = n
    · -- a page that is listed again is told the same again
      obtain rfl : id = ⟨n⟩ := PageId.ext hn
      cases pages[n]? <;> simp [Page.told]
    · have hne : (⟨n⟩, n) ≠ (id, id.index) := fun heq => hn (Prod.mk.inj heq).2.symm
      simp [hn, hne]

/-- In the order of the numbers, a page stands at the position of its number. -/
theorem eq_of_getElem?_range {count n : Nat} {id : PageId}
    (h : ((List.range count).map PageId.mk)[n]? = some id) : id = ⟨n⟩ := by
  rw [List.getElem?_map, Option.map_eq_some_iff] at h
  obtain ⟨m, hm, rfl⟩ := h
  obtain ⟨hlt, hposition⟩ := List.getElem?_eq_some_iff.1 hm
  rw [← hposition, List.getElem_range]

/-- **A page is told the numbers before and after its own**, when the pages are read in
the order of their numbers. -/
theorem page?_assignNeighbours {nav : Navigation}
    (horder : nav.readingOrder = (List.range nav.pageTable.length).map PageId.mk) (n : Nat) :
    nav.assignNeighbours.page? ⟨n⟩ = (nav.page? ⟨n⟩).map (Page.told nav.readingOrder n) := by
  have hlisted : ∀ entry ∈ nav.readingOrder.zipIdx, entry.1.index = entry.2 := by
    intro entry hentry
    rw [List.mem_zipIdx_iff_getElem?, horder] at hentry
    rw [eq_of_getElem?_range hentry]
  refine (getElem?_withNeighbours _ hlisted _ n).trans ?_
  by_cases hn : n < nav.pageTable.length
  · rw [if_pos]
    · rfl
    · rw [List.mem_zipIdx_iff_getElem?, horder, List.getElem?_map, List.getElem?_range hn,
        Option.map_some]
  · have hnone : nav.pageTable[n]? = none := List.getElem?_eq_none (Nat.le_of_not_lt hn)
    rw [page?, hnone]
    split <;> rfl

end Navigation

/-- **The pages of a built navigation know their neighbours in reading order.** -/
theorem neighbours_of_value_build {spec : Option Spec} {factory : PageFactory}
    {catalog filled : Catalog} {nav : Navigation} (hfactory : Drafting.MakesNewPages factory)
    (h : (build spec factory catalog).value = (.ok nav, filled)) {n : Nat} {id : PageId} {p : Page}
    (hid : nav.readingOrder[n]? = some id) (hp : nav.page? id = some p) :
    p.previous = (if n = 0 then none else nav.readingOrder[n - 1]?) ∧
      p.next = nav.readingOrder[n + 1]? := by
  obtain ⟨entries, items, made, hsound, -, hplaced, hfinish⟩ := exists_of_value_build h
  have horder := (finished_of_placedAll hfactory hplaced hsound hfinish).readingOrder
  obtain rfl : id = ⟨n⟩ := by
    rw [horder] at hid
    exact Navigation.eq_of_getElem?_range hid
  rw [value_finish, Prod.mk.injEq] at hfinish
  obtain ⟨rfl, -⟩ := hfinish
  generalize ((Navigation.ofReading items made hsound).addOrphans factory made.catalog).value.1 =
    base at *
  have hsame := Navigation.sameParts_assignNeighbours base
  have hbase : base.readingOrder = (List.range base.pageTable.length).map PageId.mk := by
    rw [← hsame.readingOrder, horder, hsame.pages]
  rw [Navigation.page?_assignNeighbours hbase] at hp
  obtain ⟨old, -, rfl⟩ := Option.map_eq_some_iff.1 hp
  exact ⟨rfl, rfl⟩

/-- What is read is a page. -/
theorem exists_page?_of_mem_readingOrder {spec : Option Spec} {factory : PageFactory}
    {catalog filled : Catalog} {nav : Navigation} (hfactory : Drafting.MakesNewPages factory)
    (h : (build spec factory catalog).value = (.ok nav, filled)) {id : PageId}
    (hid : id ∈ nav.readingOrder) : ∃ p, nav.page? id = some p := by
  obtain ⟨made, hfinished⟩ := exists_finished_of_value_build hfactory h
  rw [hfinished.readingOrder] at hid
  obtain ⟨n, hn, rfl⟩ := List.mem_map.1 hid
  exact ⟨_, List.getElem?_eq_getElem (List.mem_range.1 hn)⟩

/-! ## Reading on -/

/-- A page without its neighbours. -/
def Page.withoutNeighbours (p : Page) : Page :=
  { p with previous := none, next := none }

namespace Navigation

/-- Which pages are read from a page on, when after each page the next one is read until a
page has none. -/
inductive ReadsOn (nav : Navigation) : Option PageId → List PageId → Prop where
  | stop : ReadsOn nav none []
  | page {id : PageId} {p : Page} {rest : List PageId} (hp : nav.page? id = some p)
      (hrest : ReadsOn nav p.next rest) : ReadsOn nav (some id) (id :: rest)

/-- There is one way of reading on. -/
theorem ReadsOn.unique {nav : Navigation} {start : Option PageId} {read other : List PageId}
    (h : nav.ReadsOn start read) (h' : nav.ReadsOn start other) : read = other := by
  induction h generalizing other with
  | stop =>
    cases h'
    rfl
  | page hp _ ih =>
    cases h' with
    | page hp' hrest =>
      obtain rfl := Option.some.inj (hp.symm.trans hp')
      rw [ih hrest]

/-- A navigation whose pages are chained in reading order. -/
structure IsChain (nav : Navigation) : Prop where
  first : ∀ id ∈ nav.readingOrder.head?, ∃ p, nav.page? id = some p ∧ p.previous = none
  last : ∀ id ∈ nav.readingOrder.getLast?, ∃ p, nav.page? id = some p ∧ p.next = none
  /-- Of two pages that are read one after the other, each knows the other. -/
  link : ∀ (n : Nat) (id other : PageId), nav.readingOrder[n]? = some id →
    nav.readingOrder[n + 1]? = some other → ∃ p q, nav.page? id = some p ∧
      nav.page? other = some q ∧ p.next = some other ∧ q.previous = some id
  /-- Every page is read once, and nothing else is read. -/
  once : ∀ id, nav.readingOrder.count id = if (nav.page? id).isSome then 1 else 0
  /-- From the first page on all are read, in their order and to the end. -/
  readsOn_iff : ∀ read, nav.ReadsOn nav.readingOrder.head? read ↔ read = nav.readingOrder

variable {nav : Navigation}

/-- What is read from a position on, when every page knows the page after it. -/
theorem readsOn_drop (hnext : ∀ (n : Nat) (id : PageId), nav.readingOrder[n]? = some id →
      ∃ p, nav.page? id = some p ∧ p.next = nav.readingOrder[n + 1]?) :
    ∀ n, nav.ReadsOn nav.readingOrder[n]? (nav.readingOrder.drop n) := by
  intro n
  -- by the number of pages that are left
  induction hleft : nav.readingOrder.length - n generalizing n with
  | zero =>
    have hn : nav.readingOrder.length ≤ n := Nat.le_of_sub_eq_zero hleft
    rw [List.getElem?_eq_none hn, List.drop_eq_nil_of_le hn]
    exact .stop
  | succ left ih =>
    have hn : n < nav.readingOrder.length := by omega
    obtain ⟨p, hp, hpnext⟩ := hnext n _ (List.getElem?_eq_getElem hn)
    rw [List.getElem?_eq_getElem hn, List.drop_eq_getElem_cons hn]
    refine .page hp ?_
    rw [hpnext]
    exact ih (n + 1) (by omega)

/-- What knows the pages before and after itself is a chain, if no page is read twice. -/
theorem isChain_of_neighbours
    (honce : ∀ id, nav.readingOrder.count id = if (nav.page? id).isSome then 1 else 0)
    (hneighbours : ∀ (n : Nat) (id : PageId), nav.readingOrder[n]? = some id →
      ∃ p, nav.page? id = some p ∧
        p.previous = (if n = 0 then none else nav.readingOrder[n - 1]?) ∧
        p.next = nav.readingOrder[n + 1]?) : nav.IsChain where
  first id hid := by
    obtain ⟨p, hp, hprevious, -⟩ := hneighbours 0 id (by rw [← List.head?_eq_getElem?]; exact hid)
    exact ⟨p, hp, hprevious⟩
  last id hid := by
    rw [List.getLast?_eq_getElem?] at hid
    obtain ⟨hlt, -⟩ := List.getElem?_eq_some_iff.1 hid
    obtain ⟨p, hp, -, hnext⟩ := hneighbours _ id hid
    exact ⟨p, hp, hnext.trans (List.getElem?_eq_none (by omega))⟩
  link n id other hid hother := by
    obtain ⟨p, hp, -, hnext⟩ := hneighbours n id hid
    obtain ⟨q, hq, hprevious, -⟩ := hneighbours (n + 1) other hother
    exact ⟨p, q, hp, hq, hnext.trans hother, hprevious.trans hid⟩
  once := honce
  readsOn_iff read := by
    have hall : nav.ReadsOn nav.readingOrder.head? nav.readingOrder := by
      have hdrop := readsOn_drop (fun n id hid => by
        obtain ⟨p, hp, -, hnext⟩ := hneighbours n id hid
        exact ⟨p, hp, hnext⟩) 0
      rwa [← List.head?_eq_getElem?, List.drop_zero] at hdrop
    exact ⟨fun hread => hread.unique hall, fun heq => heq ▸ hall⟩

/-- **Telling neighbours changes nothing else about a page**, whatever the order says. -/
theorem withoutNeighbours_assignNeighbours (nav : Navigation) (id : PageId) :
    (nav.assignNeighbours.page? id).map Page.withoutNeighbours =
      (nav.page? id).map Page.withoutNeighbours := by
  have htable : ∀ (listed : List (PageId × Nat)) (pages : List Page),
      (withNeighbours nav.readingOrder listed pages).map Page.withoutNeighbours =
        pages.map Page.withoutNeighbours := by
    intro listed
    induction listed with
    | nil => exact fun _ => rfl
    | cons entry rest ih =>
      intro pages
      rw [withNeighbours, ih]
      apply map_modify_eq
      intro p
      rfl
  have hpages := congrArg (·[id.index]?) (htable nav.readingOrder.zipIdx nav.pageTable)
  simp only [List.getElem?_map] at hpages
  exact hpages

end Navigation

/-- What a build has made of a specification when the pages are all there, and only their
neighbours are missing. -/
def IsUnchained (spec : Option Spec) (factory : PageFactory) (catalog : Catalog)
    (nav : Navigation) : Prop :=
  ∃ (items : List Item) (made : Draft) (hsound : Drafting.Sound made),
    (readingOf spec factory catalog).value = (.ok items, made) ∧
      nav = ((Navigation.ofReading items made hsound).addOrphans factory made.catalog).value.1

/-- What is built is what is there without neighbours, after their pass. -/
theorem exists_isUnchained_of_value_build {spec : Option Spec} {factory : PageFactory}
    {catalog filled : Catalog} {nav : Navigation}
    (h : (build spec factory catalog).value = (.ok nav, filled)) :
    ∃ before, IsUnchained spec factory catalog before ∧ nav = before.assignNeighbours := by
  obtain ⟨entries, items, made, hsound, harrange, hplaced, hfinish⟩ := exists_of_value_build h
  have hread := (readingOf_of_arrange factory harrange).2
  rw [hplaced] at hread
  rw [value_finish, Prod.mk.injEq] at hfinish
  exact ⟨_, ⟨items, made, hsound, hread, rfl⟩, hfinish.1.symm⟩

/-- **The pages of a built navigation form one chain** in reading order, the pages of the
forest before the orphans.  There is a page for every leaf that names a file, however often
it is named.  Of every page, the pass that makes the chain has changed the neighbours and
nothing else. -/
theorem chain_of_value_build {spec : Option Spec} {factory : PageFactory}
    {catalog filled : Catalog} {nav : Navigation} (hfactory : Drafting.MakesNewPages factory)
    (h : (build spec factory catalog).value = (.ok nav, filled)) :
    nav.IsChain ∧ nav.readingOrder = nav.treePages ++ nav.orphans filled ∧
      nav.treePages.length = (((effectiveSpec spec catalog).targets.map targetUri).filter
        (· ∈ catalog.srcUris)).length ∧
      ∃ before, IsUnchained spec factory catalog before ∧ nav = before.assignNeighbours ∧
        ∀ id, (nav.page? id).map Page.withoutNeighbours =
          (before.page? id).map Page.withoutNeighbours := by
  obtain ⟨entries, items, made, hsound, harrange, hplaced, hfinish⟩ := exists_of_value_build h
  have hfinished := finished_of_placedAll hfactory hplaced hsound hfinish
  refine ⟨?_, hfinished.readingOrder_eq, ?_, ?_⟩
  · apply Navigation.isChain_of_neighbours
    · intro id
      rw [hfinished.count_readingOrder, Navigation.page?]
      simp
    · intro n id hid
      obtain ⟨p, hp⟩ := exists_page?_of_mem_readingOrder hfactory h (List.mem_of_getElem? hid)
      exact ⟨p, hp, neighbours_of_value_build hfactory h hid hp⟩
  · have hlength := Drafting.length_pages_placedAll factory entries (Draft.start catalog)
    have hstart : (Draft.start catalog).catalog.srcUris = catalog.srcUris :=
      Catalog.srcUris_eq_of_map_detach_eq catalog.map_detach_detachAll
    rw [hplaced, hstart, targetsAll_of_arrange _ harrange, effectiveSpec_detachAll] at hlength
    rw [hfinished.treePages_eq, List.length_map, List.length_range, hlength, Draft.start,
      List.length_nil, Nat.zero_add]
  · obtain ⟨before, hbefore, rfl⟩ := exists_isUnchained_of_value_build h
    exact ⟨before, hbefore, rfl, before.withoutNeighbours_assignNeighbours⟩

theorem exists_chain_smallSite : ∃ nav filled,
    (build (some smallSpec) Page.ofFile smallSite).value = (.ok nav, filled) ∧
      nav.IsChain ∧ nav.readingOrder = nav.treePages ++ nav.orphans filled ∧
      nav.treePages.length = 4 ∧
      ∃ before, IsUnchained (some smallSpec) Page.ofFile smallSite before ∧
        nav = before.assignNeighbours ∧ ∀ id, (nav.page? id).map Page.withoutNeighbours =
          (before.page? id).map Page.withoutNeighbours := by
  obtain ⟨nav, filled, -, hbuild, -⟩ := exists_finished_smallSite
  obtain ⟨hchain, horder, hlength, hunchained⟩ :=
    chain_of_value_build (fun title f => ⟨title, f, rfl⟩) hbuild
  have hnamed : ((smallSpec.targets.map targetUri).filter (· ∈ smallSite.srcUris)).length = 4 := by
    decide
  exact ⟨nav, filled, hbuild, hchain, horder, hlength.trans hnamed, hunchained⟩

end Nav
end DocSite
