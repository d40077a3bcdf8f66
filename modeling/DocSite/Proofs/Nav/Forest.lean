import Mathlib.Data.List.Nodup
import Mathlib.Data.List.Pairwise
import DocSite.Nav.Navigation

/-!
# The two ways through a forest

The walk of a navigation holds the items still to be visited in its hand.  The
other way down is the recursion on sections, `below`: an item, and then
everything below what is in it.  They visit the same items in the same order
(`walk_eq_flatMap_below`), so the walk is depth-first and from left to right.

Every item that the walk visits is either outside all sections or in a section
that the walk visits, and it is visited as often as it stands there
(`visits_perm`).  So a walk that repeats nothing leaves an item one place only
(`eq_of_mem_children`, `notMem_children_of_mem_items`), which is what makes the
tables of a navigation a forest.

The way up is `Leads`: the sections from an item to the top, nearest first.
Where parents and children agree, `ancestors` follows it
(`ancestors_eq_of_leads`).
-/

namespace DocSite
namespace Nav
namespace Navigation

/-! ## Down -/

/-- An item and everything below it, each section before what is in it and from
left to right. -/
def below (nav : Navigation) (item : Item) : List Item :=
  item :: (nav.children item).attach.flatMap fun child => nav.below child.1
termination_by item.rank
decreasing_by exact rank_lt_of_mem_children child.2

theorem below_eq (nav : Navigation) (item : Item) :
    nav.below item = item :: (nav.children item).flatMap nav.below := by
  rw [below, List.flatMap_subtype (fun _ _ => rfl), List.unattach_attach]

theorem below_ofPage (nav : Navigation) (id : PageId) :
    nav.below (.ofPage id) = [.ofPage id] := by
  rw [below_eq]
  rfl

theorem below_ofLink (nav : Navigation) (id : LinkId) :
    nav.below (.ofLink id) = [.ofLink id] := by
  rw [below_eq]
  rfl

/-- Visiting held items is going down each of them in turn. -/
theorem visits_eq_flatMap_below (nav : Navigation) (held : List Item) :
    nav.visits held = held.flatMap nav.below := by
  induction held using visits.induct nav with
  | case1 => rw [visits, List.flatMap_nil]
  | case2 item rest ih =>
    rw [visits, ih, List.flatMap_cons, below_eq nav item, List.flatMap_append, List.cons_append]

/-- **The walk is the depth-first order.** -/
theorem walk_eq_flatMap_below (nav : Navigation) : nav.walk = nav.items.flatMap nav.below :=
  nav.visits_eq_flatMap_below nav.items

/-- What is visited is what was held, and what is in what is visited. -/
theorem visits_perm (nav : Navigation) (held : List Item) :
    (nav.visits held).Perm (held ++ (nav.visits held).flatMap nav.children) := by
  induction held using visits.induct nav with
  | case1 => simp [visits]
  | case2 item rest ih =>
    rw [visits, List.flatMap_cons, List.cons_append, List.perm_cons]
    refine ih.trans ?_
    -- the items in the one just taken stand in front of the rest, or behind it
    rw [← List.append_assoc]
    exact List.perm_append_comm.append_right _

theorem walk_perm (nav : Navigation) :
    nav.walk.Perm (nav.items ++ nav.walk.flatMap nav.children) :=
  nav.visits_perm nav.items

theorem mem_walk_of_mem_children {nav : Navigation} {item child : Item} (h : item ∈ nav.walk)
    (hchild : child ∈ nav.children item) : child ∈ nav.walk := by
  rw [nav.walk_perm.mem_iff, List.mem_append, List.mem_flatMap]
  exact Or.inr ⟨item, h, hchild⟩

/-! ## One place for each item -/

/-- Nothing outside all sections is in a section. -/
theorem notMem_children_of_mem_items {nav : Navigation} (h : nav.walk.Nodup) {item around : Item}
    (hitem : item ∈ nav.items) (haround : around ∈ nav.walk) :
    item ∉ nav.children around := by
  intro hchild
  have hsplit := (nav.walk_perm.nodup_iff.1 h)
  rw [List.nodup_append] at hsplit
  exact hsplit.2.2 item hitem item (List.mem_flatMap.2 ⟨around, haround, hchild⟩) rfl

/-- Nothing is in two sections. -/
theorem eq_of_mem_children {nav : Navigation} (h : nav.walk.Nodup) {item first second : Item}
    (hfirst : first ∈ nav.walk) (hsecond : second ∈ nav.walk)
    (hmemFirst : item ∈ nav.children first) (hmemSecond : item ∈ nav.children second) :
    first = second := by
  have hsplit := (nav.walk_perm.nodup_iff.1 h)
  rw [List.nodup_append] at hsplit
  have hpairwise := (List.nodup_flatMap.1 hsplit.2.1).2
  have : Std.Symm (Function.onFun List.Disjoint nav.children) :=
    ⟨fun _ _ hdisjoint _ hx hy => hdisjoint hy hx⟩
  by_contra hne
  exact hpairwise.forall hfirst hsecond hne hmemFirst hmemSecond

/-! ## Up -/

/-- The sections that lead from an item to the top, nearest first. -/
inductive Leads (nav : Navigation) : Item → List SectionId → Prop where
  | top {item : Item} : item ∈ nav.items → Leads nav item []
  | inside {item : Item} {id : SectionId} {above : List SectionId} :
      item ∈ nav.children (.ofSection id) → Leads nav (.ofSection id) above →
      Leads nav item (id :: above)

/-- Everything that is visited is led up from. -/
theorem exists_leads {nav : Navigation} {item : Item} (h : item ∈ nav.walk) :
    ∃ above, nav.Leads item above := by
  have hgoal : ∀ held : List Item, (∀ x ∈ held, ∃ above, nav.Leads x above) →
      ∀ x ∈ nav.visits held, ∃ above, nav.Leads x above := by
    intro held
    induction held using visits.induct nav with
    | case1 => simp [visits]
    | case2 first rest ih =>
      intro hheld x hx
      rw [visits, List.mem_cons] at hx
      rcases hx with rfl | hx
      · exact hheld x (List.mem_cons_self ..)
      · refine ih (fun y hy => ?_) x hx
        rcases List.mem_append.1 hy with hy | hy
        · obtain ⟨above, habove⟩ := hheld first (List.mem_cons_self ..)
          match first with
          | .ofSection id => exact ⟨id :: above, .inside hy habove⟩
          | .ofPage _ | .ofLink _ => simp [children] at hy
        · exact hheld y (List.mem_cons_of_mem _ hy)
  exact hgoal nav.items (fun x hx => ⟨[], .top hx⟩) item h

theorem sectionsUp_none (nav : Navigation) : nav.sectionsUp none = [] := by
  rw [sectionsUp]

theorem sectionsUp_some (nav : Navigation) (id : SectionId) :
    nav.sectionsUp (some id) = id :: nav.ancestors (.ofSection id) := by
  rw [sectionsUp, ancestors]

/-- Where an item has a parent exactly when it is in it, and none when it is
outside all sections, its ancestors are the way up. -/
theorem ancestors_eq_of_leads {nav : Navigation}
    (hparent : ∀ item id, nav.parent? item = some id ↔ item ∈ nav.children (.ofSection id))
    (htop : ∀ item ∈ nav.items, nav.parent? item = none) {item : Item} {above : List SectionId}
    (h : nav.Leads item above) : nav.ancestors item = above := by
  induction h with
  | top hitem => rw [ancestors, htop _ hitem, sectionsUp_none]
  | inside hitem _ ih => rw [ancestors, (hparent _ _).2 hitem, sectionsUp_some, ih]

end Navigation
end Nav
end DocSite
