import DocSite.Proofs.Nav.Coverage
import DocSite.Proofs.Nav.Neighbours
import DocSite.Proofs.Nav.Tree
import DocSite.Proofs.SourceFile.Links

/-!
# The home page of a site that follows its directories

A site has a home page when it has an index file directly at the top, and then a reader
begins there (`homepage_of_discover`).  Three notions of an index file meet in this: the
order of the listing puts index files first, by their stems; the name of a page is folded
to `index`, for the same stems (`pageName_eq_index_iff`); and a home page is known by its
address, which is `.` or `index.html` by the style of the site
(`Page.isHomepage_ofFile_iff`).

A page is outside all sections exactly when its file is directly at the top
(`page_mem_trees_infer_iff`), because every directory has a title, so that is where the home
page is found.  A path at the top that is put in first stays first
(`Group.head?_leavesAll_grown`), and a listing begins with an index file at the top if it
has one (`exists_cons_isTopIndex`).
-/

namespace DocSite

/-- The stems that come first in a listing are those of which the page is called `index`. -/
theorem pageName_eq_index_iff {file : String} : pageName file = "index" ↔ isIndexName file := by
  rw [pageName, isIndexName]
  by_cases hreadme : stemOfName file = "README"
  · simp [hreadme]
  · simp [hreadme]

namespace SourceFile

/-- A file lies directly at the top, and its page is an index page. -/
def IsTopIndex (f : SourceFile) : Prop :=
  SlashFree f.srcUri ∧ f.name = "index"

instance (f : SourceFile) : Decidable f.IsTopIndex :=
  inferInstanceAs (Decidable (_ ∧ _))

namespace Stands

variable {f : SourceFile} {dirs : List String} {file : String}

theorem slashFree_srcUri_iff (h : f.Stands dirs file) : SlashFree f.srcUri ↔ dirs = [] := by
  constructor
  · intro hfree
    have hpieces := h.pieces_srcUri
    rw [pieces_of_slashFree hfree] at hpieces
    have hlength := congrArg List.length hpieces
    rw [List.length_append, List.length_singleton, List.length_singleton] at hlength
    exact List.eq_nil_of_length_eq_zero (by omega)
  · rintro rfl
    rw [h.srcUri, List.nil_append, joined_singleton]
    exact h.legal_file.2.2.2

theorem isTopIndex_iff (h : f.Stands dirs file) :
    f.IsTopIndex ↔ dirs = [] ∧ isIndexName file := by
  rw [IsTopIndex, h.slashFree_srcUri_iff, h.name, pageName_eq_index_iff]

/-- The index files at the top are `index` and `README` with the extensions of Markdown. -/
theorem isTopIndex_iff_mem (h : f.Stands dirs file) (hmarkdown : isMarkdown file) :
    f.IsTopIndex ↔ f.srcUri ∈ markdownExtensions.map ("index" ++ ·) ++
      markdownExtensions.map ("README" ++ ·) := by
  rw [h.isTopIndex_iff]
  by_cases hdirs : dirs = []
  · subst hdirs
    rw [h.srcUri, List.nil_append, joined_singleton, List.mem_append,
      ← isMarkdown_and_stemOfName_iff file (by decide) (by decide),
      ← isMarkdown_and_stemOfName_iff file (by decide) (by decide)]
    simp [isIndexName, hmarkdown]
  · have hall : ∀ srcUri ∈ markdownExtensions.map ("index" ++ ·) ++
        markdownExtensions.map ("README" ++ ·), SlashFree srcUri := by decide
    exact iff_of_false (fun htop => hdirs htop.1)
      fun hmem => hdirs (h.slashFree_srcUri_iff.1 (hall _ hmem))

end Stands

end SourceFile

namespace Nav

/-! ## What is outside all groups -/

namespace Group

theorem page_mem_upsert_iff {title path : String} {change : List Group → List Group}
    {groups : List Group} : page path ∈ upsert title change groups ↔ page path ∈ groups := by
  induction groups with
  | nil => simp [upsert]
  | cons g rest ih =>
    cases g with
    | page other => rw [upsert, List.mem_cons, List.mem_cons, ih]
    | group other members =>
      rw [upsert]
      split <;> simp [ih]

theorem page_mem_insert_iff {path other : String} {titles : List String} {groups : List Group} :
    page other ∈ insert path titles groups ↔
      page other ∈ groups ∨ titles = [] ∧ other = path := by
  cases titles with
  | nil => simp [insert]
  | cons title titles =>
    rw [insert, page_mem_upsert_iff]
    simp

/-- Outside all groups are the paths that lead through no directory. -/
theorem page_mem_grown_iff {paths : List String} {path : String} :
    page path ∈ grown paths ↔ path ∈ paths ∧ directoryTitles path = [] := by
  induction paths using List.reverseRecOn with
  | nil => simp [grown]
  | append_singleton paths last ih =>
    rw [grown_concat, page_mem_insert_iff, ih, List.mem_append, List.mem_singleton, or_and_right]
    refine or_congr_right ⟨?_, ?_⟩
    · rintro ⟨htitles, rfl⟩
      exact ⟨rfl, htitles⟩
    · rintro ⟨rfl, htitles⟩
      exact ⟨htitles, rfl⟩

/-- Nothing is put in front of a page. -/
theorem insert_page_cons (path other : String) (titles : List String) (groups : List Group) :
    insert path titles (page other :: groups) = page other :: insert path titles groups := by
  cases titles <;> rfl

/-- A path outside all groups that is put in first stays first. -/
theorem exists_grown_eq_page_cons {path : String} (h : directoryTitles path = [])
    (rest : List String) : ∃ groups, grown (path :: rest) = page path :: groups := by
  induction rest using List.reverseRecOn with
  | nil => exact ⟨[], by rw [grown, List.foldl_cons, h]; rfl⟩
  | append_singleton rest last ih =>
    obtain ⟨groups, hgroups⟩ := ih
    exact ⟨_, by rw [← List.cons_append, grown_concat, hgroups, insert_page_cons]⟩

theorem head?_leavesAll_grown {path : String} (h : directoryTitles path = [])
    (rest : List String) : (leavesAll (grown (path :: rest))).head? = some path := by
  obtain ⟨groups, hgroups⟩ := exists_grown_eq_page_cons h rest
  rw [hgroups, leavesAll, leaves, List.singleton_append, List.head?_cons]

theorem page_mem_treesOfItems_iff {catalog : Catalog} {p : Page} (groups : List Group) :
    .page p ∈ Spec.treesOfItems catalog (toSpecs groups) ↔
      ∃ path, page path ∈ groups ∧ leafTree catalog none path = .page p := by
  induction groups with
  | nil => simp [toSpecs, Spec.treesOfItems]
  | cons g rest ih =>
    rw [toSpecs, Spec.treesOfItems, List.mem_append, ih]
    cases g with
    | page path =>
      rw [toSpec, Spec.trees, List.mem_singleton, eq_comm]
      simp [or_and_right, exists_or]
    | group title members =>
      simp [toSpec, Spec.entry, Spec.trees, Spec.treesOfMembers, Spec.titledTree]

end Group

/-- Outside all sections an inferred site has the pages of the files at the top. -/
theorem page_mem_trees_infer_iff {catalog : Catalog} {p : Page} {paths : List String} :
    .page p ∈ (infer paths).trees catalog ↔ ∃ path ∈ paths, directoryTitles path = [] ∧
      leafTree catalog none path = .page p := by
  rw [infer_eq, Spec.trees, Group.page_mem_treesOfItems_iff]
  simp only [Group.page_mem_grown_iff, and_assoc]

namespace Navigation

/-- Outside all sections are the pages of the items there. -/
theorem page_mem_trees_iff {nav : Navigation} {q : Page} : .page q ∈ nav.trees ↔
    ∃ id p, .ofPage id ∈ nav.items ∧ nav.page? id = some p ∧ p.withoutPlace = q := by
  rw [trees, List.mem_flatMap]
  constructor
  · rintro ⟨item, hitem, hmem⟩
    cases item with
    | ofPage id =>
      rw [treesOf, Option.mem_toList, Option.map_eq_some_iff] at hmem
      obtain ⟨p, hp, heq⟩ := hmem
      exact ⟨id, p, hitem, hp, Tree.page.inj heq⟩
    | ofSection id =>
      rw [treesOf_ofSection, Option.mem_toList, Option.map_eq_some_iff] at hmem
      obtain ⟨s, -, heq⟩ := hmem
      cases heq
    | ofLink id =>
      rw [treesOf, Option.mem_toList, Option.map_eq_some_iff] at hmem
      obtain ⟨l, -, heq⟩ := hmem
      cases heq
  · rintro ⟨id, p, hitem, hp, rfl⟩
    exact ⟨_, hitem, by rw [treesOf, hp, Option.map_some, Option.toList_some, List.mem_singleton]⟩

/-- In a forest, what has no section around it is outside all of them. -/
theorem IsForest.parent?_eq_none_iff {nav : Navigation} {catalog : Catalog}
    (h : nav.IsForest catalog) {item : Item} (hitem : item ∈ nav.walk) :
    nav.parent? item = none ↔ item ∈ nav.items := by
  refine ⟨fun hparent => ?_, h.parent_item item⟩
  obtain ⟨above, hleads⟩ := exists_leads hitem
  cases hleads with
  | top htop => exact htop
  | inside hchild _ =>
    rw [(h.parent_iff _ _).2 hchild] at hparent
    cases hparent

theorem exists_page?_of_homepage? {nav : Navigation} {id : PageId} (h : nav.homepage? = some id) :
    ∃ p, nav.page? id = some p ∧ p.isHomepage := by
  have hany := List.find?_some h
  cases hp : nav.page? id with
  | none => simp [hp] at hany
  | some p => exact ⟨p, rfl, by simpa [hp] using hany⟩

end Navigation

/-! ## The file of the home page -/

/-- The page of a file at the top is the home page when it is that of an index file, in
either style. -/
theorem Page.isHomepage_ofFile_iff {f : SourceFile} {file : String} (h : f.Stands [] file)
    (hmarkdown : isMarkdown file) : (Page.ofFile none f).isHomepage ↔ f.IsTopIndex := by
  rw [h.isTopIndex_iff, ← pageName_eq_index_iff, ← h.name]
  by_cases hindex : f.name = "index"
  · have hnames : publishedNames f.directoryUrls [] file = [] ++ ["index.html"] := by
      rw [publishedNames, if_neg (by simp [hmarkdown]), ← h.name, hindex]
      simp
    obtain ⟨hurl, -⟩ := h.url_pieces hnames
    have haddress : f.url = "." ∨ f.url = "index.html" := by
      rw [hurl]
      cases f.directoryUrls with
      | true => exact .inl (by decide)
      | false => exact .inr (by decide)
    simp [isHomepage, Page.ofFile, hindex, haddress.imp_right Or.inr]
  · simp [isHomepage, Page.ofFile, hindex]

/-- A document that discovery has found stands under its names. -/
theorem exists_stands_of_documentation {c : Catalog} {paths : List (List String)}
    (huris : c.documentation.map SourceFile.srcUri = paths.map joined)
    (hlegal : ∀ path ∈ paths, AreLegal path ∧ path ≠ []) {f : SourceFile}
    (hf : f ∈ c.documentation) : ∃ dirs file, dirs ++ [file] ∈ paths ∧ f.Stands dirs file := by
  have hmem : f.srcUri ∈ paths.map joined := huris ▸ List.mem_map_of_mem hf
  obtain ⟨path, hpath, heq⟩ := List.mem_map.1 hmem
  obtain ⟨hnames, hne⟩ := hlegal path hpath
  obtain ⟨dirs, file, rfl⟩ := (List.eq_nil_or_concat' path).resolve_left hne
  exact ⟨dirs, file, hpath, hnames, heq.symm⟩

/-- **A listing begins with an index file at the top**, if it has one. -/
theorem exists_cons_isTopIndex {c : Catalog} {paths : List (List String)}
    (huris : c.documentation.map SourceFile.srcUri = paths.map joined)
    (hlegal : ∀ path ∈ paths, AreLegal path ∧ path ≠ []) (hordered : paths.Pairwise Before)
    {f : SourceFile} (hf : f ∈ c.documentation) (htop : f.IsTopIndex) :
    ∃ first rest, c.documentation = first :: rest ∧ first.IsTopIndex := by
  obtain ⟨first, rest, hfiles⟩ := List.exists_cons_of_ne_nil (List.ne_nil_of_mem hf)
  refine ⟨first, rest, hfiles, ?_⟩
  obtain ⟨dirs, file, hmem, hstands⟩ := exists_stands_of_documentation huris hlegal hf
  obtain ⟨rfl, hindex⟩ := hstands.isTopIndex_iff.1 htop
  rw [hfiles, List.map_cons] at huris
  obtain ⟨path, others, rfl, hpath, -⟩ := List.map_eq_cons_iff.1 huris.symm
  obtain ⟨hnames, hne⟩ := hlegal path (List.mem_cons_self ..)
  rcases List.mem_cons.1 hmem with heq | hlater
  · obtain rfl : path = [file] := heq.symm
    exact (SourceFile.Stands.isTopIndex_iff ⟨hnames, hpath.symm⟩).2 ⟨rfl, hindex⟩
  · -- what comes before a file at the top is a file at the top, and index files come first
    have hbefore : Before path [file] := (List.pairwise_cons.1 hordered).1 _ hlater
    match path, hbefore with
    | [other], hbefore =>
      have hother : isIndexName other := by
        have hbefore : FileBefore other file := hbefore
        rw [FileBefore] at hbefore
        split at hbefore
        · exact ‹isIndexName other = isIndexName file›.trans hindex
        · exact hbefore
      exact (SourceFile.Stands.isTopIndex_iff ⟨hnames, hpath.symm⟩).2 ⟨rfl, hother⟩
    | _ :: _ :: _, hbefore => simp [Before] at hbefore

/-! ## The home page -/

/-- A file of a catalog is the one that is found under its name. -/
theorem find?_srcUri_of_mem {c : Catalog} {f : SourceFile} (hf : f ∈ c.files) :
    (c.files.find? fun g => g.srcUri = f.srcUri) = some f := by
  cases hfind : c.files.find? fun g => g.srcUri = f.srcUri with
  | none => exact absurd (decide_eq_true rfl) (List.find?_eq_none.1 hfind f hf)
  | some g =>
    obtain ⟨hg, hname⟩ := Catalog.mem_of_find?_srcUri hfind
    exact congrArg some (List.inj_on_of_nodup_map c.distinct hg hf hname)

section Discovered

variable {fs : FileSystem} {exclude : List String} {docs site : Path} {directoryUrls : Bool}
  {c filled : Catalog} {nav : Navigation}

/-- Outside all sections are the pages of the documents at the top. -/
theorem page_mem_trees_iff_of_discover
    (h : (Catalog.discover fs docs site directoryUrls exclude).outcome = .ok c)
    (hbuild : (build none Page.ofFile c).value = (.ok nav, filled)) (q : Page) :
    .page q ∈ nav.trees ↔
      ∃ f ∈ c.documentation, ∃ file, f.Stands [] file ∧ Page.ofFile none f = q := by
  obtain ⟨paths, huris, hlegal, -⟩ := exists_paths_of_documentation h
  have hleaf : ∀ {f dirs file}, f ∈ c.documentation → f.Stands dirs file →
      directoryTitles f.srcUri = dirs.map titleOfName ∧
        leafTree c none f.srcUri = .page (Page.ofFile none f) := by
    intro f dirs file hf hstands
    have htarget : targetUri f.srcUri = f.srcUri := by
      rw [hstands.srcUri]
      exact Path.portable_normalize_joined hstands.legal (by simp)
    rw [leafTree, htarget, find?_srcUri_of_mem (List.mem_filter.1 hf).1, hstands.srcUri,
      directoryTitles_joined hstands.legal (by simp), List.dropLast_concat]
    exact ⟨rfl, rfl⟩
  rw [trees_eq_of_value_build hbuild]
  refine page_mem_trees_infer_iff.trans ⟨?_, ?_⟩
  · rintro ⟨srcUri, hsrcUri, htitles, htree⟩
    obtain ⟨f, hf, rfl⟩ := List.mem_map.1 hsrcUri
    obtain ⟨dirs, file, -, hstands⟩ := exists_stands_of_documentation huris hlegal hf
    obtain ⟨hdirs, hpage⟩ := hleaf hf hstands
    rw [htitles] at hdirs
    obtain rfl : dirs = [] := List.map_eq_nil_iff.1 hdirs.symm
    exact ⟨f, hf, file, hstands, Tree.page.inj (hpage.symm.trans htree)⟩
  · rintro ⟨f, hf, file, hstands, rfl⟩
    obtain ⟨hdirs, hpage⟩ := hleaf hf hstands
    exact ⟨_, List.mem_map_of_mem hf, hdirs, hpage⟩

theorem Page.isHomepage_withoutPlace {p : Page} (h : p.parent = none) :
    p.withoutPlace.isHomepage = p.isHomepage := by
  rw [isHomepage, isHomepage, h]
  rfl

/-- A page with a file of documentation at the top is the only page of its name. -/
theorem Navigation.Covers.eq_of_srcUri (h : nav.Covers c filled) {f : SourceFile}
    (hf : f ∈ c.documentation) {id other : PageId}
    (hid : (nav.page? id).map Page.srcUri = some f.srcUri)
    (hother : (nav.page? other).map Page.srcUri = some f.srcUri) : id = other := by
  obtain ⟨hmem, hkind⟩ := List.mem_filter.1 hf
  obtain ⟨g, hg, hdetach⟩ : ∃ g ∈ filled.files, g.detach = f.detach := by
    rw [← List.mem_map, h.files]
    exact List.mem_map_of_mem hmem
  have hname : g.srcUri = f.srcUri := by
    rw [← SourceFile.srcUri_detach g, hdetach, SourceFile.srcUri_detach]
  have hdocumentation : g.isDocumentation := by
    rw [SourceFile.isDocumentation, hname]
    exact hkind
  obtain ⟨only, -, honly⟩ := h.onePage g (List.mem_filter.2 ⟨hg, hdocumentation⟩)
  rw [hname] at honly
  exact ((honly id).1 hid).trans ((honly other).1 hother).symm

/-- A home page is outside all sections, so it is the page of an index file at the top. -/
theorem exists_isTopIndex_of_isHomepage
    (h : (Catalog.discover fs docs site directoryUrls exclude).outcome = .ok c)
    (hbuild : (build none Page.ofFile c).value = (.ok nav, filled)) (hcovers : nav.Covers c filled)
    {id : PageId} {p : Page} (hp : nav.page? id = some p) (hhome : p.isHomepage) :
    ∃ f ∈ c.documentation, f.IsTopIndex ∧ Page.ofFile none f = p.withoutPlace := by
  have hparent : p.parent = none := by
    simp only [Page.isHomepage, Bool.and_eq_true, Option.isNone_iff_eq_none] at hhome
    exact hhome.1.1
  obtain ⟨made, hfinished⟩ :=
    exists_finished_of_value_build (fun title f => ⟨title, f, rfl⟩) hbuild
  have hitem : .ofPage id ∈ nav.items := by
    refine (hfinished.isForest.parent?_eq_none_iff (hcovers.inForest id (by simp [hp]))).1 ?_
    rw [Navigation.parent?, hp]
    exact hparent
  obtain ⟨f, hf, file, hstands, hpage⟩ := (page_mem_trees_iff_of_discover h hbuild _).1
    (Navigation.page_mem_trees_iff.2 ⟨id, p, hitem, hp, rfl⟩)
  have hmarkdown : isMarkdown file := hstands.isDocumentation ▸ (List.mem_filter.1 hf).2
  refine ⟨f, hf, (Page.isHomepage_ofFile_iff hstands hmarkdown).1 ?_, hpage⟩
  rw [hpage, Page.isHomepage_withoutPlace hparent, hhome]

/-- The page of an index file at the top is a home page. -/
theorem isHomepage_of_isTopIndex
    (h : (Catalog.discover fs docs site directoryUrls exclude).outcome = .ok c)
    (hbuild : (build none Page.ofFile c).value = (.ok nav, filled)) (hcovers : nav.Covers c filled)
    {f : SourceFile} (hf : f ∈ c.documentation) (htop : f.IsTopIndex) {id : PageId} {p : Page}
    (hp : nav.page? id = some p) (huri : p.srcUri = f.srcUri) : p.isHomepage := by
  obtain ⟨paths, huris, hlegal, -⟩ := exists_paths_of_documentation h
  obtain ⟨dirs, file, -, hstands⟩ := exists_stands_of_documentation huris hlegal hf
  obtain ⟨rfl, -⟩ := hstands.isTopIndex_iff.1 htop
  obtain ⟨other, q, hitem, hq, hpage⟩ := Navigation.page_mem_trees_iff.1
    ((page_mem_trees_iff_of_discover h hbuild _).2 ⟨f, hf, file, hstands, rfl⟩)
  have huri' : q.srcUri = f.srcUri := congrArg Page.srcUri hpage
  obtain rfl : id = other :=
    hcovers.eq_of_srcUri hf (by rw [hp, Option.map_some, huri]) (by rw [hq, Option.map_some, huri'])
  obtain rfl : p = q := Option.some.inj (hp.symm.trans hq)
  obtain ⟨made, hfinished⟩ :=
    exists_finished_of_value_build (fun title f => ⟨title, f, rfl⟩) hbuild
  have hparent : p.parent = none := by
    simpa [Navigation.parent?, hp] using hfinished.parent?_of_mem_items hitem
  have hmarkdown : isMarkdown file := hstands.isDocumentation ▸ (List.mem_filter.1 hf).2
  rw [← Page.isHomepage_withoutPlace hparent, hpage]
  exact (Page.isHomepage_ofFile_iff hstands hmarkdown).2 htop

/-- Where there is an index file at the top, a home page is read first. -/
theorem exists_head_of_isTopIndex
    (h : (Catalog.discover fs docs site directoryUrls exclude).outcome = .ok c)
    (hbuild : (build none Page.ofFile c).value = (.ok nav, filled)) (hcovers : nav.Covers c filled)
    (hread : nav.srcUris = Group.leavesAll (Group.grown (c.documentation.map SourceFile.srcUri)))
    {f : SourceFile} (hf : f ∈ c.documentation) (htop : f.IsTopIndex) :
    ∃ id later p, nav.readingOrder = id :: later ∧ nav.page? id = some p ∧ p.isHomepage := by
  obtain ⟨paths, huris, hlegal, hordered⟩ := exists_paths_of_documentation h
  obtain ⟨first, rest, hfiles, hfirst⟩ := exists_cons_isTopIndex huris hlegal hordered hf htop
  have hmem : first ∈ c.documentation := hfiles ▸ List.mem_cons_self ..
  obtain ⟨dirs, file, -, hstands⟩ := exists_stands_of_documentation huris hlegal hmem
  obtain ⟨rfl, -⟩ := hstands.isTopIndex_iff.1 hfirst
  have htitles : directoryTitles first.srcUri = [] := by
    rw [hstands.srcUri, directoryTitles_joined hstands.legal (by simp)]
    rfl
  rw [hfiles, List.map_cons] at hread
  have hhead := Group.head?_leavesAll_grown htitles (rest.map SourceFile.srcUri)
  rw [← hread] at hhead
  have hne : nav.readingOrder ≠ [] := by
    intro hnil
    rw [Navigation.srcUris, hnil] at hhead
    simp at hhead
  obtain ⟨id, later, horder⟩ := List.exists_cons_of_ne_nil hne
  obtain ⟨p, hp⟩ := exists_page?_of_mem_readingOrder (fun title f => ⟨title, f, rfl⟩) hbuild
    (horder ▸ List.mem_cons_self ..)
  have huri : p.srcUri = first.srcUri := by
    rw [Navigation.srcUris, horder, List.filterMap_cons, hp] at hhead
    exact Option.some.inj hhead
  exact ⟨id, later, p, horder, hp, isHomepage_of_isTopIndex h hbuild hcovers hmem hfirst hp huri⟩

end Discovered

/-- **A site that follows its directories has a home page exactly when there is an index
file at the top**: from what discovery has found it is built without an error or a report,
and it has a home page exactly when a document directly at the top is called `index` or
`README`, with any of the extensions.  The home page is then read first and is shown as
home. -/
theorem homepage_of_discover {fs : FileSystem} {exclude : List String} {docs site : Path}
    {directoryUrls : Bool} {c : Catalog}
    (h : (Catalog.discover fs docs site directoryUrls exclude).outcome = .ok c) :
    ∃ nav filled, build none Page.ofFile c = ⟨[], .ok nav, filled⟩ ∧
      (nav.homepage?.isSome ↔ ∃ f ∈ c.documentation, f.IsTopIndex) ∧
      (∀ f ∈ c.documentation, f.IsTopIndex ↔ f.srcUri ∈
        markdownExtensions.map ("index" ++ ·) ++ markdownExtensions.map ("README" ++ ·)) ∧
      ∀ id ∈ nav.homepage?, nav.readingOrder.head? = some id ∧
        ∃ p, nav.page? id = some p ∧ p.displayTitle = "Home" := by
  obtain ⟨paths, huris, hlegal, -⟩ := exists_paths_of_documentation h
  have hperm : (effectiveSpec none c).targets.Perm (c.documentation.map SourceFile.srcUri) :=
    targets_infer_perm _
  have hwritten := map_targetUri_of_perm (huris ▸ hperm) hlegal
  have harrange : arrange [] (effectiveSpec none c) = .ok (effectiveSpec none c).entries :=
    arrange_infer _
  obtain ⟨nav, filled, hbuild, hcovers, hread⟩ :=
    build_of_covering (fun title f => ⟨title, rfl⟩) harrange (covering_of_perm hperm hwritten)
  rw [hwritten] at hread
  have hvalue := congrArg Journal.value hbuild
  refine ⟨nav, filled, hbuild, ⟨fun hsome => ?_, fun ⟨f, hf, htop⟩ => ?_⟩, fun f hf => ?_,
    fun id hid => ?_⟩
  · obtain ⟨id, hid⟩ := Option.isSome_iff_exists.1 hsome
    obtain ⟨p, hp, hhome⟩ := Navigation.exists_page?_of_homepage? hid
    obtain ⟨f, hf, htop, -⟩ := exists_isTopIndex_of_isHomepage h hvalue hcovers hp hhome
    exact ⟨f, hf, htop⟩
  · obtain ⟨id, later, p, horder, hp, hhome⟩ :=
      exists_head_of_isTopIndex h hvalue hcovers (hread.trans (targets_infer_eq _)) hf htop
    rw [Navigation.homepage?, List.find?_isSome]
    exact ⟨id, horder ▸ List.mem_cons_self .., by rw [hp]; exact hhome⟩
  · obtain ⟨dirs, file, -, hstands⟩ := exists_stands_of_documentation huris hlegal hf
    exact hstands.isTopIndex_iff_mem (hstands.isDocumentation ▸ (List.mem_filter.1 hf).2)
  · obtain ⟨p, hp, hhome⟩ := Navigation.exists_page?_of_homepage? hid
    obtain ⟨f, hf, htop, hpage⟩ := exists_isTopIndex_of_isHomepage h hvalue hcovers hp hhome
    obtain ⟨first, later, q, horder, hq, hfirst⟩ :=
      exists_head_of_isTopIndex h hvalue hcovers (hread.trans (targets_infer_eq _)) hf htop
    have hfound : nav.homepage? = some first := by
      rw [Navigation.homepage?, horder]
      exact List.find?_cons_of_pos (by rw [hq]; exact hfirst)
    obtain rfl : first = id := Option.some.inj (hfound.symm.trans hid)
    have htitle : p.title = none := (congrArg Page.title hpage).symm
    refine ⟨by rw [horder, List.head?_cons], p, hp, ?_⟩
    rw [Page.displayTitle, htitle]
    exact if_pos hhome

theorem exists_homepage_linkedTree : ∃ c nav filled id p,
    (Catalog.discover linkedTree ⟨"/docs"⟩ ⟨"/site"⟩ true [".*"]).outcome = .ok c ∧
      build none Page.ofFile c = ⟨[], .ok nav, filled⟩ ∧ nav.homepage? = some id ∧
      nav.readingOrder.head? = some id ∧ nav.page? id = some p ∧ p.displayTitle = "Home" := by
  obtain ⟨nav, filled, hbuild, hsome, -, hhome⟩ := homepage_of_discover outcome_discover_linkedTree
  obtain ⟨id, hid⟩ := Option.isSome_iff_exists.1
    (hsome.2 ⟨.ofPath ⟨"index.md"⟩ ⟨"/docs"⟩ ⟨"/site"⟩ true, by decide +kernel, by decide +kernel⟩)
  obtain ⟨hfirst, p, hp, htitle⟩ := hhome id hid
  exact ⟨_, nav, filled, id, p, outcome_discover_linkedTree, hbuild, hid, hfirst, hp, htitle⟩

end Nav
end DocSite
