import DocSite.Proofs.Nav.Attachment
import DocSite.Proofs.Nav.Shape

/-!
# A specification that covers the files

A build reports a file that is named again, a leaf that is no file, and the documentation
that no leaf names.  A specification whose leaves name different files of the catalog, all
documentation among them, gives no cause for any of the three (`build_of_covering`): nothing
is reported, every leaf becomes a page, and there are no other pages.

While such a specification is read, the names that are still to be read are those of files
without a page (`Waiting`).  A leaf attaches a page to the first of them and leaves the
others as they are, so each leaf finds its file waiting (`placeAll_of_waiting`).
-/

namespace DocSite
namespace Nav

/-! ## Leaves that find their files waiting -/

/-- Different names, each of a file without a page. -/
structure Waiting (files : List SourceFile) (names : List String) : Prop where
  distinct : names.Nodup
  waiting : ∀ name ∈ names, ∃ f ∈ files, f.srcUri = name ∧ f.page = none

/-- The first of the names is that of a file without a page, and the others keep waiting
when the file is given one. -/
theorem Waiting.attach {c : Catalog} {name : String} {rest : List String}
    (h : Waiting c.files (name :: rest)) (id : PageId) :
    ∃ f left, c.attach name id = (some f, left) ∧ f.page = none ∧ Waiting left.files rest := by
  obtain ⟨hname, hdistinct⟩ := List.nodup_cons.1 h.distinct
  obtain ⟨f, hf, rfl, hpage⟩ := h.waiting name (List.mem_cons_self ..)
  rcases hattach : c.attach f.srcUri id with ⟨_ | g, left⟩
  · exact absurd (List.mem_map_of_mem hf) (Catalog.notMem_of_attach_eq_none hattach)
  · obtain ⟨hg, heq⟩ := Catalog.mem_of_attach_eq_some hattach
    obtain rfl : g = f := List.inj_on_of_nodup_map c.distinct hg hf heq
    refine ⟨g, left, rfl, hpage, hdistinct, fun other hother => ?_⟩
    obtain ⟨waiting, hwaiting, rfl, hnone⟩ := h.waiting other (List.mem_cons_of_mem _ hother)
    have hne : ¬ waiting.srcUri = g.srcUri := fun hsame => hname (hsame ▸ hother)
    have hleft : left.files =
        c.files.map fun f => if f.srcUri = g.srcUri then f.attach id else f := by
      rw [← c.files_attach, hattach]
    refine ⟨waiting, ?_, rfl, hnone⟩
    rw [hleft, List.mem_map]
    exact ⟨waiting, hwaiting, if_neg hne⟩

namespace Drafting

variable (factory : PageFactory)

theorem events_place_group (title : String) (entries : List Entry) (draft : Draft) :
    ((place factory (.group title entries)).run draft).events =
      ((placeAll factory entries).run draft).events := by
  rw [place, StateT.run_bind, Journal.events_bind]
  exact List.append_nil _

theorem events_placeAll_cons (e : Entry) (rest : List Entry) (draft : Draft) :
    ((placeAll factory (e :: rest)).run draft).events = ((place factory e).run draft).events ++
      ((placeAll factory rest).run (placed factory e draft).2).events := by
  rw [placeAll, StateT.run_bind, Journal.events_bind, StateT.run_bind, Journal.events_bind]
  exact congrArg (_ ++ ·) (List.append_nil _)

/-- A leaf whose file is waiting reports nothing and is no link. -/
theorem place_leaf_of_waiting (title : Option String) (target : String) (draft : Draft)
    {names : List String} (h : Waiting draft.catalog.files (targetUri target :: names)) :
    ((place factory (.leaf title target)).run draft).events = [] ∧
      (placed factory (.leaf title target) draft).2.links = draft.links ∧
      Waiting (placed factory (.leaf title target) draft).2.catalog.files names := by
  obtain ⟨f, left, hattach, hpage, hleft⟩ := h.attach ⟨draft.pages.length⟩
  have hrun := run_leaf factory title target draft
  rw [hattach] at hrun
  rw [placed, place, hrun]
  refine ⟨?_, rfl, hleft⟩
  show (if f.page.isNone then [] else [Event.repeatedPage f.srcUri]) = []
  rw [hpage]
  rfl

mutual
theorem place_of_waiting : ∀ (e : Entry) (draft : Draft) {names : List String},
    Waiting draft.catalog.files (e.targets.map targetUri ++ names) →
      ((place factory e).run draft).events = [] ∧
        (placed factory e draft).2.links = draft.links ∧
        Waiting (placed factory e draft).2.catalog.files names
  | .leaf title target, draft, names, h => place_leaf_of_waiting factory title target draft h
  | .group title entries, draft, names, h => by
    rw [events_place_group, placed_group]
    exact placeAll_of_waiting entries draft h

/-- **Leaves that find their files waiting report nothing**, and none of them is a link. -/
theorem placeAll_of_waiting : ∀ (entries : List Entry) (draft : Draft) {names : List String},
    Waiting draft.catalog.files ((Entry.targetsAll entries).map targetUri ++ names) →
      ((placeAll factory entries).run draft).events = [] ∧
        (placedAll factory entries draft).2.links = draft.links ∧
        Waiting (placedAll factory entries draft).2.catalog.files names
  | [], draft, names, h => by
    rw [placedAll_nil]
    exact ⟨rfl, rfl, h⟩
  | e :: rest, draft, names, h => by
    rw [Entry.targetsAll, List.map_append, List.append_assoc] at h
    obtain ⟨hevents, hlinks, hwaiting⟩ := place_of_waiting e draft h
    obtain ⟨hevents', hlinks', hwaiting'⟩ :=
      placeAll_of_waiting rest (placed factory e draft).2 hwaiting
    rw [events_placeAll_cons, hevents, hevents', placedAll_cons]
    exact ⟨rfl, hlinks'.trans hlinks, hwaiting'⟩
end

end Drafting

/-! ## Passes that have nothing to do -/

theorem visitFiles_of_supplied {factory : PageFactory} {files : List SourceFile}
    (h : ∀ f ∈ files, f.isDocumentation → f.page.isSome) (made : Navigation × List String) :
    Catalog.visitFiles (Navigation.adoptFile factory) made files = (files, made) := by
  induction files with
  | nil => rfl
  | cons f rest ih =>
    have hneedless : (!f.isDocumentation || f.page.isSome) = true := by
      have hf := h f (List.mem_cons_self ..)
      cases hkind : f.isDocumentation with
      | false => rfl
      | true => exact hf hkind
    have hpass : Navigation.adoptFile factory made f = (f, made) := if_pos hneedless
    rw [Catalog.visitFiles, hpass]
    dsimp only
    rw [ih fun g hg => h g (List.mem_cons_of_mem _ hg)]

/-- Where every documentation file has a page, no orphan is reported. -/
theorem events_addOrphans_of_supplied (factory : PageFactory) {catalog : Catalog}
    (h : ∀ f ∈ catalog.files, f.isDocumentation → f.page.isSome) (nav : Navigation) :
    (nav.addOrphans factory catalog).events = [] := by
  have hnone : (Catalog.visitFiles (Navigation.adoptFile factory) (nav, [])
      catalog.files).2.2.isEmpty = true := by
    rw [visitFiles_of_supplied h]
    rfl
  rw [Navigation.addOrphans, Catalog.visit]
  dsimp only
  rw [if_pos hnone]
  rfl

theorem events_checkLinks_of_nil {nav : Navigation} (h : nav.linkTable = []) :
    (checkLinks nav).events = [] := by
  have hnone : nav.links.filterMap nav.link? = [] := by
    rw [List.filterMap_eq_nil_iff]
    intro id _
    rw [Navigation.link?, h]
    rfl
  rw [checkLinks, hnone]
  rfl

/-! ## The covering build -/

/-- The names of the pages in the order in which they are read. -/
def Navigation.srcUris (nav : Navigation) : List String :=
  nav.readingOrder.filterMap fun id => (nav.page? id).map Page.srcUri

theorem filterMap_getElem?_range {α : Type} (entries : List α) :
    (List.range entries.length).filterMap (fun n => entries[n]?) = entries := by
  induction entries with
  | nil => rfl
  | cons a rest ih =>
    rw [List.length_cons, List.range_succ_eq_map, List.filterMap_cons, List.filterMap_map]
    exact congrArg (a :: ·) ih

/-- Where pages are read in the order of their numbers, so are their names. -/
theorem Navigation.srcUris_eq {nav : Navigation}
    (h : nav.readingOrder = (List.range nav.pageTable.length).map PageId.mk) :
    nav.srcUris = nav.pageTable.map Page.srcUri := by
  have hnames := filterMap_getElem?_range (nav.pageTable.map Page.srcUri)
  rw [List.length_map] at hnames
  rw [Navigation.srcUris, h, List.filterMap_map, ← hnames]
  refine List.filterMap_congr fun n _ => ?_
  rw [List.getElem?_map]
  rfl

/-- Where pages are read in the order of their numbers, the pages are what is read. -/
theorem Navigation.mem_readingOrder_iff {nav : Navigation}
    (h : nav.readingOrder = (List.range nav.pageTable.length).map PageId.mk) (id : PageId) :
    id ∈ nav.readingOrder ↔ nav.page? id ≠ none := by
  rw [h, Navigation.page?, Ne, List.getElem?_eq_none_iff, Nat.not_le, List.mem_map]
  constructor
  · rintro ⟨n, hn, rfl⟩
    exact List.mem_range.1 hn
  · intro hid
    exact ⟨id.index, List.mem_range.2 hid, rfl⟩

/-- A navigation of one page for each documentation file, all of them in its forest, and
without links. -/
structure Navigation.Covers (nav : Navigation) (catalog filled : Catalog) : Prop where
  /-- The files are those of the catalog, and only their pages are new. -/
  files : filled.files.map SourceFile.detach = catalog.files.map SourceFile.detach
  linkless : nav.linkTable = []
  /-- No page is outside the forest. -/
  orphanless : nav.orphans filled = []
  inForest : ∀ id, nav.page? id ≠ none → .ofPage id ∈ nav.walk
  /-- What is read are the pages. -/
  read : ∀ id, id ∈ nav.readingOrder ↔ nav.page? id ≠ none
  /-- Each documentation file has a page, and this is the only page of its name. -/
  onePage : ∀ f ∈ filled.documentation, ∃ id, f.page = some id ∧
    ∀ other, (nav.page? other).map Page.srcUri = some f.srcUri ↔ other = id

/-- Leaves name different files of a catalog, all documentation among them. -/
structure Covering (targets : List String) (catalog : Catalog) : Prop where
  distinct : (targets.map targetUri).Nodup
  found : ∀ target ∈ targets, targetUri target ∈ catalog.srcUris
  documentation : ∀ f ∈ catalog.documentation, ∃ target ∈ targets, targetUri target = f.srcUri

namespace Covering

variable {targets : List String} {catalog : Catalog}

/-- Before anything is read, all files are waiting. -/
theorem waiting_start (h : Covering targets catalog) :
    Waiting (Draft.start catalog).catalog.files (targets.map targetUri ++ []) := by
  rw [List.append_nil]
  refine ⟨h.distinct, fun name hname => ?_⟩
  obtain ⟨target, htarget, rfl⟩ := List.mem_map.1 hname
  obtain ⟨f, hf, heq⟩ := List.mem_map.1 (h.found target htarget)
  refine ⟨f.detach, ?_, heq, rfl⟩
  rw [Draft.start, Catalog.files_detachAll]
  exact List.mem_map_of_mem hf

/-- Every leaf becomes a page. -/
theorem filter_eq (h : Covering targets catalog) :
    (targets.map targetUri).filter (· ∈ catalog.srcUris) = targets.map targetUri := by
  refine List.filter_eq_self.2 fun name hname => ?_
  obtain ⟨target, htarget, rfl⟩ := List.mem_map.1 hname
  exact decide_eq_true (h.found target htarget)

/-- A documentation file of the catalog is named, whatever page it has. -/
theorem srcUri_mem (h : Covering targets catalog) {name : String} (hname : name ∈ catalog.srcUris)
    (hkind : isMarkdown name) : name ∈ targets.map targetUri := by
  obtain ⟨f, hf, rfl⟩ := List.mem_map.1 hname
  obtain ⟨target, htarget, heq⟩ := h.documentation f (List.mem_filter.2 ⟨hf, hkind⟩)
  exact List.mem_map.2 ⟨target, htarget, heq⟩

end Covering

/-- In different names, a name stands only where it is found. -/
theorem getElem?_eq_some_iff_of_findIdx? {names : List String} (hdistinct : names.Nodup)
    {name : String} {n : Nat} (h : (names.findIdx? fun other => other = name) = some n)
    (id : PageId) : names[id.index]? = some name ↔ id = ⟨n⟩ := by
  obtain ⟨hn, hfound, -⟩ := List.findIdx?_eq_some_iff_getElem.1 h
  have hname : names[n]? = some name := by
    rw [List.getElem?_eq_getElem hn]
    exact congrArg some (by simpa using hfound)
  constructor
  · intro hid
    have hindex : n = id.index :=
      (List.getElem?_inj hn hdistinct).1 (hname.trans hid.symm)
    exact PageId.ext hindex.symm
  · rintro rfl
    exact hname

/-- What finishing makes of a draft of one page for each name that a covering specification
has. -/
theorem Navigation.covers_of_finish {factory : PageFactory} {targets : List String}
    {catalog filled : Catalog} {entries : List Entry} {items : List Item} {made : Draft}
    {nav : Navigation} (hfactory : MakesPagesOfFiles factory) (hcovering : Covering targets catalog)
    (hplaced : Drafting.placedAll factory entries (Draft.start catalog) = (items, made))
    (hnames : made.pages.map Page.srcUri = targets.map targetUri) (hlinks : made.links = [])
    (hsound : Drafting.Sound made)
    (h : (finish factory items made hsound).value = (nav, filled)) :
    nav.Covers catalog filled ∧ nav.srcUris = targets.map targetUri := by
  have hfinished := finished_of_placedAll hfactory.makesNewPages hplaced hsound h
  obtain ⟨orphans, hsupplied⟩ := exists_supplied_of_finish hfactory hplaced hsound h
  have hfiles := map_detach_of_finish hplaced hsound h
  have hsrcUris : filled.srcUris = catalog.srcUris := Catalog.srcUris_eq_of_map_detach_eq hfiles
  -- all documentation was read, so there is nothing left for an orphan
  have hnone : orphans = [] := by
    refine List.eq_nil_iff_forall_not_mem.2 fun name hname => ?_
    obtain ⟨hkind, hunread, hmem⟩ := hsupplied.orphan name hname
    rw [List.append_nil] at hmem
    have hnamed := hcovering.srcUri_mem (hsrcUris ▸ hmem) hkind
    exact hunread (hnames ▸ hnamed)
  have htable : nav.pageTable.map Page.srcUri = targets.map targetUri := by
    rw [hsupplied.names, hnone, List.append_nil, hnames]
  have hlength : nav.pageTable.length = made.pages.length := by
    have hsame := congrArg List.length (htable.trans hnames.symm)
    rwa [List.length_map, List.length_map] at hsame
  refine ⟨{
    files := hfiles
    linkless := List.eq_nil_of_length_eq_zero (by rw [hfinished.links, hlinks, List.length_nil])
    orphanless := by rw [hfinished.orphans_eq, hlength, List.Ico.self_empty, List.map_nil]
    inForest := fun id hid => by
      rw [hfinished.mem_walk_ofPage_iff, ← hlength]
      exact Nat.lt_of_not_le fun hle => hid (List.getElem?_eq_none hle)
    read := Navigation.mem_readingOrder_iff hfinished.readingOrder
    onePage := fun f hf => ?_ }, ?_⟩
  · obtain ⟨hmem, hkind⟩ := List.mem_filter.1 hf
    obtain ⟨id, hid⟩ := Option.isSome_iff_exists.1 (hsupplied.supplied f hmem hkind)
    have hfirst := hsupplied.first f (by rwa [List.append_nil])
    rw [hid, ← hsupplied.names, htable] at hfirst
    obtain ⟨n, hn, rfl⟩ := Option.map_eq_some_iff.1 hfirst.symm
    refine ⟨⟨n⟩, hid, fun other => ?_⟩
    rw [Navigation.page?, ← List.getElem?_map, htable]
    exact getElem?_eq_some_iff_of_findIdx? hcovering.distinct hn other
  · rw [Navigation.srcUris_eq hfinished.readingOrder, htable]

/-- Finishing such a draft reports nothing. -/
theorem events_finish_of_covering {factory : PageFactory} {targets : List String}
    {catalog filled : Catalog} {entries : List Entry} {items : List Item} {made : Draft}
    {nav : Navigation} (hfactory : MakesPagesOfFiles factory) (hcovering : Covering targets catalog)
    (hplaced : Drafting.placedAll factory entries (Draft.start catalog) = (items, made))
    (hnames : made.pages.map Page.srcUri = targets.map targetUri)
    (hsound : Drafting.Sound made)
    (h : (finish factory items made hsound).value = (nav, filled)) (hlinks : nav.linkTable = []) :
    (finish factory items made hsound).events = [] := by
  have hsrcUris : made.catalog.srcUris = catalog.srcUris := by
    have hgrows := (Drafting.grows_placedAll factory entries (Draft.start catalog)).srcUris
    rw [hplaced] at hgrows
    rw [hgrows, Draft.start]
    exact Catalog.srcUris_eq_of_map_detach_eq catalog.map_detach_detachAll
  have hsupplied : ∀ f ∈ made.catalog.files, f.isDocumentation → f.page.isSome := by
    intro f hf hkind
    have hmem : f.srcUri ∈ catalog.srcUris := hsrcUris ▸ List.mem_map_of_mem hf
    rw [(firstPages_of_placedAll hfactory hplaced).isSome_iff hf, hnames]
    exact hcovering.srcUri_mem hmem hkind
  rw [value_finish, Prod.mk.injEq] at h
  obtain ⟨rfl, -⟩ := h
  have horphans := events_addOrphans_of_supplied factory hsupplied
    (Navigation.ofReading items made hsound)
  have hcheck := events_checkLinks_of_nil hlinks
  rw [Navigation.ofReading] at horphans hcheck
  rw [finish, Journal.events_bind, horphans]
  dsimp only
  rw [Journal.events_bind, hcheck]
  rfl

/-- **A covering specification is built without a report**: its leaves become the pages, in
their order, and the navigation covers the documentation. -/
theorem build_of_covering {spec : Option Spec} {factory : PageFactory} {catalog : Catalog}
    {entries : List Entry} (hfactory : MakesPagesOfFiles factory)
    (harrange : arrange [] (effectiveSpec spec catalog) = .ok entries)
    (hcovering : Covering (effectiveSpec spec catalog).targets catalog) :
    ∃ nav filled, build spec factory catalog = ⟨[], .ok nav, filled⟩ ∧ nav.Covers catalog filled ∧
      nav.srcUris = (effectiveSpec spec catalog).targets.map targetUri := by
  have htargets := targetsAll_of_arrange _ harrange
  rw [← effectiveSpec_detachAll] at harrange
  obtain ⟨hevents, hread⟩ := readingOf_of_arrange factory harrange
  -- the reading reports nothing and makes no link
  have hwaiting := hcovering.waiting_start
  rw [← htargets] at hwaiting
  obtain ⟨hquiet, hlinks, -⟩ := Drafting.placeAll_of_waiting factory entries _ hwaiting
  rcases hplaced : Drafting.placedAll factory entries (Draft.start catalog) with ⟨items, made⟩
  rw [hplaced] at hread hlinks
  have hnames : made.pages.map Page.srcUri =
      (effectiveSpec spec catalog).targets.map targetUri := by
    rw [srcUris_pages_of_placedAll hfactory hplaced, htargets, hcovering.filter_eq]
  have hsound := sound_of_value_convert hread
  rcases hfinish : (finish factory items made hsound).value with ⟨nav, filled⟩
  obtain ⟨hcovers, hsrcUris⟩ :=
    Navigation.covers_of_finish hfactory hcovering hplaced hnames hlinks hsound hfinish
  refine ⟨nav, filled, ?_, hcovers, hsrcUris⟩
  have hreports := events_finish_of_covering hfactory hcovering hplaced hnames hsound hfinish
    hcovers.linkless
  rw [build_of_made hread, hevents, hquiet]
  dsimp only
  rw [hfinish, hreports, List.append_nil]

end Nav
end DocSite
