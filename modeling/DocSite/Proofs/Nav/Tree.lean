import DocSite.Nav.Outline
import DocSite.Proofs.Nav.Arranging
import DocSite.Proofs.Nav.Contents
import DocSite.Proofs.Nav.Shape

/-!
# The tree that a specification describes

Without numbers and tables a navigation is a row of trees.  A specification describes
such a row by itself (`Spec.trees`), with one line for each shape: a titled value is a
leaf with a title or a section, and a list is what its items are one after the other, so
that an item with one title is that entry.  A leaf is the page of the file that it
names, if the catalog has the file, and otherwise a link to what is written.

Reading a built navigation back (`Navigation.trees`) gives the trees of its
specification (`trees_of_value_build`).  The two recursions meet in the arrangement: it
describes the same trees (`Spec.treesAll_entries`), and the numbers that its entries are
given while it is placed lead to them (`treesOf_placedAll`).  What is placed later does
not matter, because a draft only grows.

What is shown of a navigation follows from its trees, for there the place of a page
decides only one thing, whether it can be the home page.
-/

namespace DocSite

namespace SourceFile

variable {f g : SourceFile}

theorem name_congr (h : f.srcUri = g.srcUri) : f.name = g.name := by
  unfold name
  rw [h]

theorem url_congr (h : f.srcUri = g.srcUri) (hstyle : f.directoryUrls = g.directoryUrls) :
    f.url = g.url := by
  have hname : f.name = g.name := name_congr h
  have hdocumentation : f.isDocumentation = g.isDocumentation := by
    rw [isDocumentation, h]
    rfl
  have hdest : f.destUri = g.destUri := by
    unfold destUri
    rw [h, hname, hdocumentation, hstyle]
  unfold url rawUrl
  rw [hdest, hstyle]

end SourceFile

namespace Nav

/-- The page of a file does not depend on the page that the file has. -/
theorem Page.ofFile_congr (title : Option String) {f g : SourceFile} (h : f.detach = g.detach) :
    Page.ofFile title f = Page.ofFile title g := by
  obtain ⟨hpath, hroot, -, hstyle⟩ : f.path = g.path ∧ f.root = g.root ∧ f.site = g.site ∧
      f.directoryUrls = g.directoryUrls := by
    simpa [SourceFile.detach] using h
  have huri : f.srcUri = g.srcUri := congrArg Path.portable hpath
  have hsrcPath : f.srcPath = g.srcPath := by
    rw [SourceFile.srcPath, huri, hroot]
    rfl
  have hname : f.name = g.name := SourceFile.name_congr huri
  have hurl : f.url = g.url := SourceFile.url_congr huri hstyle
  unfold ofFile stemOfFile
  rw [huri, hsrcPath, hname, hurl]

theorem Page.withoutPlace_eq_self {p : Page} (hparent : p.parent = none)
    (hprevious : p.previous = none) (hnext : p.next = none) : p.withoutPlace = p := by
  cases p
  cases hparent
  cases hprevious
  cases hnext
  rfl

/-- A part of a navigation by itself, with all that it says but its place. -/
inductive Tree where
  | page (p : Page)
  | branch (title : String) (active : Bool) (children : List Tree)
  | link (title : Option String) (url : String)

namespace Tree

mutual
/-- What is shown of a tree.  A page inside a section is not shown as the home page. -/
def outline (inside : Bool) : Tree → Outline
  | page p => .page (if inside then p.title.getD (titleOfName p.titleStem) else p.displayTitle)
    p.url p.srcUri p.active
  | branch title active children => .branch title active (outlines true children)
  | link title url => .link title url

/-- What is shown of a row of trees. -/
def outlines (inside : Bool) : List Tree → List Outline
  | [] => []
  | t :: rest => t.outline inside :: outlines inside rest
end

theorem outlines_append (inside : Bool) (ts others : List Tree) :
    outlines inside (ts ++ others) = outlines inside ts ++ outlines inside others := by
  induction ts with
  | nil => rfl
  | cons t rest ih => rw [List.cons_append, outlines, outlines, ih, List.cons_append]

end Tree

/-! ## What is described -/

/-- The tree of a leaf: the page of the file that it names, or else a link to it. -/
def leafTree (catalog : Catalog) (title : Option String) (target : String) : Tree :=
  match catalog.files.find? fun f => f.srcUri = targetUri target with
  | some f => .page (Page.ofFile title f)
  | none => .link title target

namespace Spec

mutual
/-- The trees that a specification describes. -/
def trees (catalog : Catalog) : Spec → List Tree
  | .leaf target => [leafTree catalog none target]
  | .list items => treesOfItems catalog items
  | .mapping members => treesOfMembers catalog members

/-- The trees of the items of a list. -/
def treesOfItems (catalog : Catalog) : List Spec → List Tree
  | [] => []
  | item :: rest => item.trees catalog ++ treesOfItems catalog rest

/-- The trees of a mapping, one for each title. -/
def treesOfMembers (catalog : Catalog) : List (String × Spec) → List Tree
  | [] => []
  | (title, value) :: rest => value.titledTree catalog title :: treesOfMembers catalog rest

/-- The tree of a value with a title. -/
def titledTree (catalog : Catalog) (title : String) : Spec → Tree
  | .leaf target => leafTree catalog (some title) target
  | .list items => .branch title false (treesOfItems catalog items)
  | .mapping members => .branch title false (treesOfMembers catalog members)
end

end Spec

namespace Entry

mutual
/-- The tree of an entry of an arrangement. -/
def tree (catalog : Catalog) : Entry → Tree
  | .leaf title target => leafTree catalog title target
  | .group title entries => .branch title false (treesAll catalog entries)

/-- The trees of a row of entries. -/
def treesAll (catalog : Catalog) : List Entry → List Tree
  | [] => []
  | e :: rest => e.tree catalog :: treesAll catalog rest
end

theorem treesAll_append (catalog : Catalog) (entries others : List Entry) :
    treesAll catalog (entries ++ others) = treesAll catalog entries ++ treesAll catalog others := by
  induction entries with
  | nil => rfl
  | cons e rest ih => rw [List.cons_append, treesAll, treesAll, ih, List.cons_append]

end Entry

namespace Spec

mutual
/-- What a specification stands for has its trees. -/
theorem treesAll_entries (catalog : Catalog) : ∀ spec : Spec,
    Entry.treesAll catalog spec.entries = spec.trees catalog
  | .leaf _ => rfl
  | .list items => treesAll_entriesOfItems catalog items
  | .mapping members => treesAll_entriesOfMembers catalog members

theorem treesAll_entriesOfItems (catalog : Catalog) : ∀ items : List Spec,
    Entry.treesAll catalog (entriesOfItems items) = treesOfItems catalog items
  | [] => rfl
  | item :: rest => by
    rw [entriesOfItems, treesOfItems, Entry.treesAll_append, treesAll_entries catalog item,
      treesAll_entriesOfItems catalog rest]

theorem treesAll_entriesOfMembers (catalog : Catalog) : ∀ members : List (String × Spec),
    Entry.treesAll catalog (entriesOfMembers members) = treesOfMembers catalog members
  | [] => rfl
  | (title, value) :: rest => by
    rw [entriesOfMembers, treesOfMembers, Entry.treesAll, tree_titledEntry catalog title value,
      treesAll_entriesOfMembers catalog rest]

theorem tree_titledEntry (catalog : Catalog) (title : String) : ∀ value : Spec,
    (value.titledEntry title).tree catalog = value.titledTree catalog title
  | .leaf _ => rfl
  | .list items => congrArg (Tree.branch title false) (treesAll_entriesOfItems catalog items)
  | .mapping members =>
    congrArg (Tree.branch title false) (treesAll_entriesOfMembers catalog members)
end

end Spec

/-! ## Reading back -/

namespace Navigation

/-- The tree of an item, where its number and all numbers below it lead to parts. -/
def treesOf (nav : Navigation) (item : Item) : List Tree :=
  match item with
  | .ofPage id => ((nav.page? id).map fun p => Tree.page p.withoutPlace).toList
  | .ofLink id => ((nav.link? id).map fun l => Tree.link l.title l.url).toList
  | .ofSection id => ((nav.section? id).map fun s => Tree.branch s.title s.active
      ((nav.children (.ofSection id)).attach.flatMap fun child => nav.treesOf child.1)).toList
termination_by item.rank
decreasing_by exact rank_lt_of_mem_children child.2

/-- A navigation read back as a row of trees. -/
def trees (nav : Navigation) : List Tree :=
  nav.items.flatMap nav.treesOf

theorem treesOf_ofSection (nav : Navigation) (id : SectionId) :
    nav.treesOf (.ofSection id) = ((nav.section? id).map fun s => Tree.branch s.title s.active
      ((nav.children (.ofSection id)).flatMap nav.treesOf)).toList := by
  rw [treesOf, List.flatMap_subtype (fun _ _ => rfl), List.unattach_attach]

theorem outlineOf_ofSection (nav : Navigation) (id : SectionId) :
    nav.outlineOf (.ofSection id) = ((nav.section? id).map fun s => Outline.branch s.title s.active
      ((nav.children (.ofSection id)).flatMap nav.outlineOf)).toList := by
  rw [outlineOf, List.flatMap_subtype (fun _ _ => rfl), List.unattach_attach]

/-- What is shown of some items is what is shown of their trees, when that holds of each. -/
theorem flatMap_outlineOf (nav : Navigation) (inside : Bool) {items : List Item}
    (h : ∀ item ∈ items, nav.outlineOf item = Tree.outlines inside (nav.treesOf item)) :
    items.flatMap nav.outlineOf = Tree.outlines inside (items.flatMap nav.treesOf) := by
  induction items with
  | nil => rfl
  | cons item rest ih =>
    rw [List.flatMap_cons, List.flatMap_cons, Tree.outlines_append, h item (List.mem_cons_self ..),
      ih fun other hother => h other (List.mem_cons_of_mem _ hother)]

/-- **What is shown of an item is what is shown of its tree**, where the items in a
section know that they are in one. -/
theorem outlineOf_eq (nav : Navigation)
    (h : ∀ item id, item ∈ nav.children (.ofSection id) → (nav.parent? item).isSome = true)
    (item : Item) :
    nav.outlineOf item = Tree.outlines (nav.parent? item).isSome (nav.treesOf item) := by
  induction item using treesOf.induct nav with
  | case1 id =>
    rw [outlineOf, treesOf, parent?]
    cases nav.page? id with
    | none => rfl
    | some p =>
      have htitle : p.displayTitle =
          if p.parent.isSome then p.title.getD (titleOfName p.titleStem)
          else p.withoutPlace.displayTitle := by
        cases hparent : p.parent with
        | none => simp [Page.displayTitle, Page.isHomepage, Page.withoutPlace, hparent]
        | some around => cases htitle : p.title <;>
            simp [Page.displayTitle, Page.isHomepage, hparent, htitle]
      rw [Option.map_some, htitle]
      rfl
  | case2 id =>
    rw [outlineOf, treesOf]
    cases nav.link? id <;> rfl
  | case3 id ih =>
    have hinside := nav.flatMap_outlineOf true fun child hchild => by
      rw [← h child id hchild]
      exact ih ⟨child, hchild⟩
    rw [outlineOf_ofSection, treesOf_ofSection, hinside]
    cases nav.section? id <;> rfl

end Navigation

/-! ## What is placed is read back -/

namespace Drafting

variable {catalog : Catalog} {nav : Navigation}

/-- Files that differ in their pages at most are found under the same names. -/
theorem find?_map_detach {files others : List SourceFile}
    (h : files.map SourceFile.detach = others.map SourceFile.detach) (srcUri : String) :
    (files.find? fun f => f.srcUri = srcUri).map SourceFile.detach =
      (others.find? fun f => f.srcUri = srcUri).map SourceFile.detach := by
  have hfind := congrArg (List.find? fun f : SourceFile => f.srcUri = srcUri) h
  rw [List.find?_map, List.find?_map] at hfind
  exact hfind

theorem Holds.treesOf_ofPage {draft : Draft} (h : Holds draft nav) {n : Nat} {p : Page}
    (hp : draft.pages[n]? = some p) : nav.treesOf (.ofPage ⟨n⟩) = [.page p.withoutPlace] := by
  obtain ⟨other, hother, hcontents⟩ := Option.map_eq_some_iff.1 (h.pages n p hp)
  rw [Navigation.treesOf, hother, Option.map_some, hcontents, Option.toList_some]

theorem Holds.treesOf_ofLink {draft : Draft} (h : Holds draft nav) {n : Nat} {l : Link}
    (hl : draft.links[n]? = some l) : nav.treesOf (.ofLink ⟨n⟩) = [.link l.title l.url] := by
  obtain ⟨other, hother, hcontents⟩ := Option.map_eq_some_iff.1 (h.links n l hl)
  obtain ⟨htitle, hurl⟩ : other.title = l.title ∧ other.url = l.url := by
    simpa [Link.withoutPlace] using hcontents
  rw [Navigation.treesOf, hother, Option.map_some, htitle, hurl, Option.toList_some]

theorem Holds.treesOf_ofSection {draft : Draft} (h : Holds draft nav) {n : Nat} {s : Section}
    (hs : draft.sections[n]? = some s) : nav.treesOf (.ofSection ⟨n⟩) =
      [.branch s.title s.active (s.children.flatMap nav.treesOf)] := by
  obtain ⟨other, hother, hcontents⟩ := Option.map_eq_some_iff.1 (h.sections n s hs)
  obtain ⟨htitle, hchildren, hactive⟩ :
      other.title = s.title ∧ other.children = s.children ∧ other.active = s.active := by
    simpa [Section.withoutPlace] using hcontents
  have hitems : nav.children (.ofSection ⟨n⟩) = s.children := by
    rw [Navigation.children, hother, Option.map_some, Option.getD_some, hchildren]
  rw [Navigation.treesOf_ofSection, hother, Option.map_some, htitle, hactive, hitems,
    Option.toList_some]

theorem treesOf_placed_leaf (title : Option String) (target : String) (draft : Draft)
    (hfiles : draft.catalog.files.map SourceFile.detach = catalog.files.map SourceFile.detach)
    (hholds : Holds (placed Page.ofFile (.leaf title target) draft).2 nav) :
    nav.treesOf (placed Page.ofFile (.leaf title target) draft).1 =
      [leafTree catalog title target] := by
  have hfind := find?_map_detach hfiles (targetUri target)
  rw [← Catalog.fst_attach draft.catalog (targetUri target) ⟨draft.pages.length⟩] at hfind
  rw [placed_leaf] at hholds ⊢
  rw [leafTree]
  split at hholds
  · rename_i left hattach
    rw [hattach] at hfind
    rw [Option.map_eq_none_iff.1 hfind.symm]
    exact hholds.treesOf_ofLink List.getElem?_concat_length
  · rename_i f left hattach
    rw [hattach] at hfind
    obtain ⟨g, hg, hdetach⟩ := Option.map_eq_some_iff.1 hfind.symm
    have hpage := hholds.treesOf_ofPage List.getElem?_concat_length
    rw [Page.withoutPlace_eq_self rfl rfl rfl, ← Page.ofFile_congr title hdetach] at hpage
    rw [hg]
    exact hpage

mutual
/-- The number of an entry leads to its tree, in every navigation that has the parts of
the draft. -/
theorem treesOf_placed : ∀ (e : Entry) (draft : Draft),
    draft.catalog.files.map SourceFile.detach = catalog.files.map SourceFile.detach →
    Holds (placed Page.ofFile e draft).2 nav →
      nav.treesOf (placed Page.ofFile e draft).1 = [e.tree catalog]
  | .leaf title target, draft, hfiles, hholds =>
    treesOf_placed_leaf title target draft hfiles hholds
  | .group title entries, draft, hfiles, hholds => by
    rw [placed_group] at hholds ⊢
    have hchildren := treesOf_placedAll entries draft hfiles
      (hholds.of_grows ⟨List.prefix_rfl, List.prefix_append _ _, List.prefix_rfl, rfl⟩)
    rw [Entry.tree, ← hchildren]
    exact hholds.treesOf_ofSection List.getElem?_concat_length

theorem treesOf_placedAll : ∀ (entries : List Entry) (draft : Draft),
    draft.catalog.files.map SourceFile.detach = catalog.files.map SourceFile.detach →
    Holds (placedAll Page.ofFile entries draft).2 nav →
      (placedAll Page.ofFile entries draft).1.flatMap nav.treesOf = Entry.treesAll catalog entries
  | [], draft, hfiles, hholds => by
    rw [placedAll_nil]
    rfl
  | e :: rest, draft, hfiles, hholds => by
    rw [placedAll_cons] at hholds ⊢
    have hgrows := grows_placed Page.ofFile e draft
    have hgrows' := grows_placedAll Page.ofFile rest (placed Page.ofFile e draft).2
    rw [List.flatMap_cons, treesOf_placed e draft hfiles (hholds.of_grows hgrows'),
      treesOf_placedAll rest _ (hgrows.files.trans hfiles) hholds, Entry.treesAll]
    rfl
end

end Drafting

/-! ## The built navigation -/

theorem trees_eq_of_value_build {spec : Option Spec} {catalog filled : Catalog} {nav : Navigation}
    (h : (build spec Page.ofFile catalog).value = (.ok nav, filled)) :
    nav.trees = (effectiveSpec spec catalog).trees catalog := by
  obtain ⟨entries, items, made, _, harrange, hplaced, hfinish⟩ := exists_of_value_build h
  have hcontinues := Navigation.continues_of_finish hfinish
  have hstart : (Draft.start catalog).catalog.files.map SourceFile.detach =
      catalog.files.map SourceFile.detach := catalog.map_detach_detachAll
  have hholds :
      Drafting.Holds (Drafting.placedAll Page.ofFile entries (Draft.start catalog)).2 nav := by
    rw [hplaced]
    exact Drafting.holds_of_continues hcontinues
  have hread := Drafting.treesOf_placedAll entries (Draft.start catalog) hstart hholds
  rw [Navigation.trees, hcontinues.items, ← Spec.treesAll_entries, ← effectiveSpec_detachAll,
    ← entries_of_arrange _ harrange, ← hread, hplaced]
  rfl

/-- **A built navigation reads back as its specification**, each leaf with the title that
is given for it, and this is what is shown. -/
theorem trees_of_value_build {spec : Option Spec} {catalog filled : Catalog} {nav : Navigation}
    (h : (build spec Page.ofFile catalog).value = (.ok nav, filled)) :
    nav.trees = (effectiveSpec spec catalog).trees catalog ∧
      nav.outline = Tree.outlines false ((effectiveSpec spec catalog).trees catalog) := by
  obtain ⟨made, hfinished⟩ :=
    exists_finished_of_value_build (fun title f => ⟨title, f, rfl⟩) h
  have htrees := trees_eq_of_value_build h
  refine ⟨htrees, ?_⟩
  rw [← htrees]
  refine nav.flatMap_outlineOf false fun item hitem => ?_
  rw [nav.outlineOf_eq fun child id hchild => by rw [(hfinished.parents child id).2 hchild]; rfl,
    hfinished.parent?_of_mem_items hitem]
  rfl

theorem exists_trees_smallSite : ∃ nav filled,
    (build (some smallSpec) Page.ofFile smallSite).value = (.ok nav, filled) ∧
      nav.trees = smallSpec.trees smallSite ∧
      nav.outline = Tree.outlines false (smallSpec.trees smallSite) := by
  have hok : (build (some smallSpec) Page.ofFile smallSite).value.1.toOption.isSome := by
    decide +kernel
  rcases hbuild : (build (some smallSpec) Page.ofFile smallSite).value with ⟨_ | nav, filled⟩
  · rw [hbuild] at hok
    simp [Except.toOption] at hok
  · exact ⟨nav, filled, rfl, trees_of_value_build hbuild⟩

end Nav
end DocSite
