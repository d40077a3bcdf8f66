import Mathlib.Data.List.Forall2
import DocSite.CommandLine.Run
import DocSite.Proofs.Nav.Marking
import DocSite.Proofs.Nav.Tree

/-!
# The views of a navigation follow its walk

A navigation is shown in three ways: as a tree for other programs, as a summary, and as the
lines that the program prints.  Each goes down from an item to the items in it by a
recursion of its own and counts its depth on the way.  The walk does neither: it holds the
items still to be visited in its hand, and how deep an item stands is found by going up
from it, through the sections around it.

What the views have in common is said once (`GoesDown`): first comes an entry for the item,
then what the view makes of the items in it, one level deeper.  Where the sections around
an item in a section are that section and the sections around it, the depth that is counted
going down is the number of sections that are met going up.  So the entries of such a view
stand for the items of the walk, one for each and in its order
(`GoesDown.forall₂_walk`), and a built navigation leaves nothing out, since every number in
its forest has a part (`viewsAgree_of_value_build`).
-/

namespace DocSite
namespace Nav

namespace Outline

mutual
/-- The parts of a tree that is shown, each before what is in it, with the depth at which
they stand. -/
def preorder (depth : Nat) : Outline → List (Nat × Outline)
  | .page title url srcUri active => [(depth, .page title url srcUri active)]
  | .branch title active children =>
    (depth, .branch title active children) :: preorderAll (depth + 1) children
  | .link title url => [(depth, .link title url)]

/-- The parts of a row of trees, one tree after the other. -/
def preorderAll (depth : Nat) : List Outline → List (Nat × Outline)
  | [] => []
  | o :: rest => o.preorder depth ++ preorderAll depth rest
end

theorem preorderAll_append (depth : Nat) (os others : List Outline) :
    preorderAll depth (os ++ others) = preorderAll depth os ++ preorderAll depth others := by
  induction os with
  | nil => rfl
  | cons o rest ih =>
    rw [List.cons_append, preorderAll, preorderAll, ih, List.append_assoc]

theorem preorderAll_flatMap {α : Type} (depth : Nat) (f : α → List Outline) (as : List α) :
    preorderAll depth (as.flatMap f) = as.flatMap fun a => preorderAll depth (f a) := by
  induction as with
  | nil => rfl
  | cons a rest ih => rw [List.flatMap_cons, List.flatMap_cons, preorderAll_append, ih]

end Outline

namespace Navigation

variable {nav : Navigation}

/-- What is shown of a part, apart from what is in it. -/
inductive Shows (nav : Navigation) : Item → Outline → Prop where
  | page {id : PageId} {p : Page} (h : nav.page? id = some p) :
      Shows nav (.ofPage id) (.page p.displayTitle p.url p.srcUri p.active)
  | branch {id : SectionId} {s : Section} (h : nav.section? id = some s)
      (children : List Outline) :
      Shows nav (.ofSection id) (.branch s.title s.active children)
  | link {id : LinkId} {l : Link} (h : nav.link? id = some l) :
      Shows nav (.ofLink id) (.link l.title l.url)

/-- The line of an item: its wording, behind as many blanks for every section around it. -/
def IsLine (nav : Navigation) (word : Item → Option String) (width : Nat) (item : Item)
    (line : String) : Prop :=
  ∃ text, word item = some text ∧
    line = indentation width (nav.ancestors item).length ++ text

/-- All views of a navigation visit the same items in the same order, each as deep as there
are sections around it. -/
structure ViewsAgree (nav : Navigation) : Prop where
  /-- The walk is the recursion that visits an item and then what is in it. -/
  walk_eq : nav.walk = nav.items.flatMap nav.below
  /-- The parts of the tree for other programs. -/
  outline : List.Forall₂
    (fun item entry => entry.1 = (nav.ancestors item).length ∧ nav.Shows item entry.2)
    nav.walk (Outline.preorderAll 0 nav.outline)
  /-- The lines of the summary. -/
  summary : ∃ lines, nav.summary = String.join (lines.map (· ++ "\n")) ∧
    List.Forall₂ (nav.IsLine nav.summaryOf 4) nav.walk lines
  /-- The lines that the program prints. -/
  treeLines : ∀ colours, List.Forall₂ (nav.IsLine (CommandLine.partText colours nav) 2)
    nav.walk (CommandLine.treeLines colours nav)
  sections : nav.sections.map Item.ofSection = nav.walk.filter fun item => item.section?.isSome
  links : nav.links.map Item.ofLink = nav.walk.filter fun item => item.link?.isSome

/-! ## Going down in step -/

/-- A view has an entry for an item, which fits it at the depth of the view, and then what
it has for the items in it, one level deeper. -/
def GoesDown {α : Type} (nav : Navigation) (view : Nat → Item → List α)
    (fits : Nat → Item → α → Prop) : Prop :=
  ∀ item ∈ nav.walk, ∀ depth, ∃ entry, fits depth item entry ∧
    view depth item = entry :: (nav.children item).flatMap (view (depth + 1))

theorem forall₂_flatMap {α β γ : Type} {r : β → γ → Prop} {f : α → List β} {g : α → List γ}
    {as : List α} (h : ∀ a ∈ as, List.Forall₂ r (f a) (g a)) :
    List.Forall₂ r (as.flatMap f) (as.flatMap g) := by
  induction as with
  | nil => exact .nil
  | cons a rest ih =>
    rw [List.flatMap_cons, List.flatMap_cons]
    exact List.rel_append (h a (List.mem_cons_self ..))
      (ih fun other hother => h other (List.mem_cons_of_mem _ hother))

/-- An item in another one stands one level deeper. -/
theorem length_ancestors_of_mem_children
    (hparent : ∀ item id, nav.parent? item = some id ↔ item ∈ nav.children (.ofSection id))
    {item child : Item} (hchild : child ∈ nav.children item) :
    (nav.ancestors child).length = (nav.ancestors item).length + 1 := by
  match item with
  | .ofSection id =>
    rw [ancestors, (hparent child id).2 hchild, sectionsUp_some, List.length_cons]
  | .ofPage _ | .ofLink _ => simp [children] at hchild

section GoesDown

variable {α : Type} {view : Nat → Item → List α} {fits : Nat → Item → α → Prop}

/-- A view that is asked for an item at its depth has every item below at its depth. -/
theorem GoesDown.forall₂_below (h : nav.GoesDown view fits)
    (hparent : ∀ item id, nav.parent? item = some id ↔ item ∈ nav.children (.ofSection id))
    (item : Item) (hitem : item ∈ nav.walk) :
    List.Forall₂ (fun x entry => fits (nav.ancestors x).length x entry) (nav.below item)
      (view (nav.ancestors item).length item) := by
  induction item using Navigation.below.induct nav with
  | case1 item ih =>
    obtain ⟨entry, hentry, hview⟩ := h item hitem (nav.ancestors item).length
    rw [below_eq, hview]
    refine .cons hentry (forall₂_flatMap fun child hchild => ?_)
    rw [← length_ancestors_of_mem_children hparent hchild]
    exact ih ⟨child, hchild⟩ (mem_walk_of_mem_children hitem hchild)

/-- **A view that goes down has one entry for each item of the walk**, in its order and at
its depth. -/
theorem GoesDown.forall₂_walk (h : nav.GoesDown view fits)
    (hparent : ∀ item id, nav.parent? item = some id ↔ item ∈ nav.children (.ofSection id))
    (htop : ∀ item ∈ nav.items, nav.parent? item = none) :
    List.Forall₂ (fun x entry => fits (nav.ancestors x).length x entry) nav.walk
      (nav.items.flatMap (view 0)) := by
  rw [walk_eq_flatMap_below]
  refine forall₂_flatMap fun item hitem => ?_
  have hdepth : (nav.ancestors item).length = 0 := by
    rw [ancestors, htop item hitem, sectionsUp_none, List.length_nil]
  have hwalk : item ∈ nav.walk := by
    rw [nav.walk_perm.mem_iff]
    exact List.mem_append_left _ hitem
  have hbelow := h.forall₂_below hparent item hwalk
  rwa [hdepth] at hbelow

end GoesDown

/-! ## The three views -/

/-- Lines go down when every item has a wording. -/
theorem goesDown_linesOf {word : Item → Option String}
    (hword : ∀ item ∈ nav.walk, ∃ text, word item = some text) (width : Nat) :
    nav.GoesDown (fun depth item => nav.linesOf word width depth item)
      fun depth item line => ∃ text, word item = some text ∧
        line = indentation width depth ++ text := by
  intro item hitem depth
  obtain ⟨text, htext⟩ := hword item hitem
  refine ⟨_, ⟨text, htext, rfl⟩, ?_⟩
  show nav.linesOf word width depth item = _
  rw [linesOf, List.flatMap_subtype (fun _ _ => rfl), List.unattach_attach, htext]
  rfl

/-- What is shown goes down when every item has a part. -/
theorem goesDown_outlineOf (hissued : ∀ item ∈ nav.walk, nav.Issued item) :
    nav.GoesDown (fun depth item => Outline.preorderAll depth (nav.outlineOf item))
      fun depth item entry => entry.1 = depth ∧ nav.Shows item entry.2 := by
  intro item hitem depth
  have hpart := hissued item hitem
  match item with
  | .ofPage id =>
    have hp : nav.page? id = some nav.pageTable[id.index] := List.getElem?_eq_getElem hpart
    refine ⟨(depth, _), ⟨rfl, .page hp⟩, ?_⟩
    show Outline.preorderAll depth (nav.outlineOf (.ofPage id)) = _
    rw [outlineOf, hp]
    rfl
  | .ofLink id =>
    have hl : nav.link? id = some nav.linkTable[id.index] := List.getElem?_eq_getElem hpart
    refine ⟨(depth, _), ⟨rfl, .link hl⟩, ?_⟩
    show Outline.preorderAll depth (nav.outlineOf (.ofLink id)) = _
    rw [outlineOf, hl]
    rfl
  | .ofSection id =>
    have hs : nav.section? id = some nav.sectionTable[id.index] := List.getElem?_eq_getElem hpart
    refine ⟨(depth, _),
      ⟨rfl, .branch hs ((nav.children (.ofSection id)).flatMap nav.outlineOf)⟩, ?_⟩
    show Outline.preorderAll depth (nav.outlineOf (.ofSection id)) = _
    rw [outlineOf_ofSection, hs, ← Outline.preorderAll_flatMap]
    show Outline.preorder depth _ ++ [] = _
    rw [List.append_nil, Outline.preorder]

theorem exists_summaryOf {item : Item} (h : nav.Issued item) :
    ∃ text, nav.summaryOf item = some text := by
  cases item with
  | ofPage id => exact ⟨_, congrArg (Option.map Page.summary) (List.getElem?_eq_getElem h)⟩
  | ofSection id => exact ⟨_, congrArg (Option.map Section.summary) (List.getElem?_eq_getElem h)⟩
  | ofLink id => exact ⟨_, congrArg (Option.map Link.summary) (List.getElem?_eq_getElem h)⟩

theorem exists_partText (colours : Bool) {item : Item} (h : nav.Issued item) :
    ∃ text, CommandLine.partText colours nav item = some text := by
  cases item with
  | ofPage id => exact ⟨_, congrArg (Option.map _) (List.getElem?_eq_getElem h)⟩
  | ofSection id => exact ⟨_, congrArg (Option.map _) (List.getElem?_eq_getElem h)⟩
  | ofLink id => exact ⟨_, congrArg (Option.map _) (List.getElem?_eq_getElem h)⟩

/-- What is picked out of a row, written as it stood there, is what the row has of it. -/
theorem map_filterMap_eq_filter {α : Type} {pick : Item → Option α} {write : α → Item}
    (h : ∀ item a, pick item = some a ↔ item = write a) (items : List Item) :
    (items.filterMap pick).map write = items.filter fun item => (pick item).isSome := by
  rw [List.map_filterMap, ← List.filterMap_eq_filter]
  refine List.filterMap_congr fun item _ => ?_
  cases hpick : pick item with
  | none => simp [Option.guard, hpick]
  | some a =>
    obtain rfl := (h item a).1 hpick
    simp [Option.guard, hpick]

theorem viewsAgree_of_issued (hissued : ∀ item ∈ nav.walk, nav.Issued item)
    (hparent : ∀ item id, nav.parent? item = some id ↔ item ∈ nav.children (.ofSection id))
    (htop : ∀ item ∈ nav.items, nav.parent? item = none) : nav.ViewsAgree where
  walk_eq := nav.walk_eq_flatMap_below
  outline := by
    rw [Navigation.outline, Outline.preorderAll_flatMap]
    exact (goesDown_outlineOf hissued).forall₂_walk hparent htop
  summary := ⟨_, rfl, (goesDown_linesOf (fun item hitem => exists_summaryOf (hissued item hitem))
    4).forall₂_walk hparent htop⟩
  treeLines colours := (goesDown_linesOf (fun item hitem =>
    exists_partText colours (hissued item hitem)) 2).forall₂_walk hparent htop
  sections := map_filterMap_eq_filter Item.section?_eq_some_iff nav.walk
  links := map_filterMap_eq_filter Item.link?_eq_some_iff nav.walk

/-! ## Built navigations -/

/-- Every number in a forest has a part. -/
theorem IsForest.issued_of_mem_walk {catalog : Catalog} (h : nav.IsForest catalog) {item : Item}
    (hitem : item ∈ nav.walk) : nav.Issued item := by
  cases item with
  | ofPage id =>
    have htree : id ∈ nav.treePages := by
      rw [treePages, ← walk_eq_flatMap_below, List.mem_filterMap]
      exact ⟨.ofPage id, hitem, rfl⟩
    have hread : id ∈ nav.readingOrder := by
      rw [h.readingOrder_eq]
      exact List.mem_append_left _ htree
    have hcount := List.count_pos_iff.2 hread
    rw [h.page_once] at hcount
    show id.index < nav.pageTable.length
    split at hcount <;> omega
  | ofSection id =>
    have hcount := List.count_pos_iff.2 hitem
    rw [h.section_once] at hcount
    show id.index < nav.sectionTable.length
    split at hcount <;> omega
  | ofLink id =>
    have hcount := List.count_pos_iff.2 hitem
    rw [h.link_once] at hcount
    show id.index < nav.linkTable.length
    split at hcount <;> omega

end Navigation

open Navigation Drafting

/-- **All views of a built navigation agree**, whatever calls for flags came after the
build: the walk on a stack, the recursion, the tree for other programs, the summary and the
lines that are printed visit the same items in the same order, each as deep as there are
sections around it. -/
theorem viewsAgree_of_value_build {spec : Option Spec} {factory : PageFactory}
    {catalog filled : Catalog} {nav : Navigation} (hfactory : MakesNewPages factory)
    (h : (build spec factory catalog).value = (.ok nav, filled)) (calls : List Switch) :
    (nav.switchAll calls).ViewsAgree := by
  obtain ⟨made, hfinished⟩ := exists_finished_of_value_build hfactory h
  have hforest := hfinished.isForest
  have hplaces : SamePlaces nav (nav.switchAll calls) := nav.samePlaces_switchAll calls
  refine viewsAgree_of_issued (fun item hitem => ?_) (fun item id => ?_) fun item hitem => ?_
  · rw [hplaces.walk] at hitem
    exact (nav.issued_switchAll calls item).2 (hforest.issued_of_mem_walk hitem)
  · rw [hplaces.parents, hplaces.children]
    exact hforest.parent_iff item id
  · rw [hplaces.items] at hitem
    rw [hplaces.parents]
    exact hforest.parent_item item hitem

theorem exists_viewsAgree_smallSite : ∃ nav filled,
    (build (some smallSpec) Page.ofFile smallSite).value = (.ok nav, filled) ∧
      CommandLine.treeLines false (nav.switchAll smallCalls) = ["Home (.)", "Guide",
        "  Start (guide/a/)", "  More", "    Logo (logo.png)", "    Again (guide/a/)",
        "Elsewhere -> https://example.org"] ∧
      (nav.switchAll smallCalls).ViewsAgree := by
  have hlines : (build (some smallSpec) Page.ofFile smallSite).value.1.toOption.map (fun nav =>
      CommandLine.treeLines false (nav.switchAll smallCalls)) = some ["Home (.)", "Guide",
        "  Start (guide/a/)", "  More", "    Logo (logo.png)", "    Again (guide/a/)",
        "Elsewhere -> https://example.org"] := by
    decide +kernel
  rcases hbuild : (build (some smallSpec) Page.ofFile smallSite).value with ⟨_ | nav, filled⟩
  · rw [hbuild] at hlines
    simp [Except.toOption] at hlines
  · rw [hbuild] at hlines
    exact ⟨nav, filled, rfl, Option.some.inj hlines,
      viewsAgree_of_value_build (fun title f => ⟨title, f, rfl⟩) hbuild smallCalls⟩

end Nav
end DocSite
