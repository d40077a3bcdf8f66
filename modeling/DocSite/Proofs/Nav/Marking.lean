import Mathlib.Logic.Function.Iterate
import DocSite.Proofs.Nav.Activity

/-!
# What a call for a flag changes

A page or a section is made active, or inactive, by a loop that goes up from section to
section and sets one flag after the other.  The loop itself knows nothing of the forest:
what it visits next is the section that the last one names as its parent, read after its
flag was set.  It ends because parents have greater numbers, and after as many rounds as
there are sections on the way (`iterate_markRound`).

In a built navigation the sections on the way are all there, so no round fails, and there
are none for a page outside all sections.  Hence a call sets the flags of what is given
and of the sections around it, and nothing else is changed (`marks_of_value_build`),
whatever calls went before, for pages and for sections, since none of them moves anything
(`samePlaces_switchAll`).
-/

namespace DocSite
namespace Nav

/-- A call that makes a part of a navigation active or inactive. -/
inductive Switch where
  | ofPage (id : PageId) (active : Bool)
  | ofSection (id : SectionId) (active : Bool)
  deriving DecidableEq, Repr

namespace Navigation

variable {nav other : Navigation}

/-- The navigation after a call. -/
def switch (nav : Navigation) : Switch → Navigation
  | .ofPage id active => nav.setPageActive id active
  | .ofSection id active => nav.setSectionActive id active

/-- The navigation after some calls in turn. -/
def switchAll (nav : Navigation) (calls : List Switch) : Navigation :=
  calls.foldl switch nav

theorem samePlaces_switch (nav : Navigation) (call : Switch) :
    SamePlaces nav (nav.switch call) := by
  cases call with
  | ofPage id active => exact samePlaces_setPageActive nav id active
  | ofSection id active => exact samePlaces_markUp active nav (some id)

/-- Calls move nothing. -/
theorem samePlaces_switchAll (nav : Navigation) (calls : List Switch) :
    SamePlaces nav (nav.switchAll calls) :=
  List.foldlRecOn calls switch ⟨⟨rfl, fun _ => rfl⟩, fun _ => rfl⟩
    fun made hmade call _ => hmade.trans (samePlaces_switch made call)

theorem issued_markUp (active : Bool) (nav : Navigation) (above : Option SectionId) (item : Item) :
    (nav.markUp active above).Issued item ↔ nav.Issued item := by
  have hsections := read_markUp (fun made => made.sectionTable.length) active
    (fun made id => by simp [markSection]) nav above
  have hlinks := read_markUp Navigation.linkTable active (fun _ _ => rfl) nav above
  cases item with
  | ofPage id => rw [Issued, Issued, pageTable_markUp]
  | ofSection id => rw [Issued, Issued, hsections]
  | ofLink id => rw [Issued, Issued, hlinks]

theorem issued_switch (nav : Navigation) (call : Switch) (item : Item) :
    (nav.switch call).Issued item ↔ nav.Issued item := by
  cases call with
  | ofSection id active => exact issued_markUp active nav (some id) item
  | ofPage id active =>
    rw [switch, setPageActive, issued_markUp]
    cases item <;> simp [Issued, modifyPage]

/-- Calls give out no number. -/
theorem issued_switchAll (nav : Navigation) (calls : List Switch) (item : Item) :
    (nav.switchAll calls).Issued item ↔ nav.Issued item :=
  List.foldlRecOn (motive := fun made => made.Issued item ↔ nav.Issued item) calls switch Iff.rfl
    fun made hmade call _ => (issued_switch made call item).trans hmade

/-! ## The loop -/

/-- One round of the loop that marks sections: the flag of the section at hand is set, and
the section that it names as its parent is at hand next. -/
def markRound (active : Bool) : Navigation × Option SectionId → Navigation × Option SectionId
  | (nav, none) => (nav, none)
  | (nav, some id) =>
    (nav.markSection id active, (nav.markSection id active).parent? (.ofSection id))

/-- **The loop ends**, after one round for every section on the way up, with all of them
marked. -/
theorem iterate_markRound (active : Bool) (nav : Navigation) (above : Option SectionId) :
    (markRound active)^[(nav.sectionsUp above).length] (nav, above) =
      (nav.markUp active above, none) := by
  induction nav, above using markUp.induct active with
  | case1 nav =>
    rw [sectionsUp_none, markUp]
    rfl
  | case2 nav id ih =>
    have hplaces := nav.samePlaces_markSection id active
    rw [sectionsUp_some, ancestors, ← hplaces.sectionsUp, List.length_cons,
      Function.iterate_succ_apply, markRound, hplaces.parents, ih, markUp]

/-! ## What a call leaves -/

/-- A navigation is another in which the flags of some pages and sections, all of them
there, have been set; nothing else is changed. -/
structure Marks (nav other : Navigation) (pages : List PageId) (sections : List SectionId)
    (active : Bool) : Prop where
  items : other.items = nav.items
  readingOrder : other.readingOrder = nav.readingOrder
  links : other.linkTable = nav.linkTable
  pages_issued : ∀ id ∈ pages, nav.Issued (.ofPage id)
  sections_issued : ∀ id ∈ sections, nav.Issued (.ofSection id)
  pages_eq : ∀ id, other.page? id =
    if id ∈ pages then (nav.page? id).map fun p => { p with active } else nav.page? id
  sections_eq : ∀ id, other.section? id =
    if id ∈ sections then (nav.section? id).map fun s => { s with active } else nav.section? id

/-- The way up from a section with an issued number passes issued numbers only, when every
parent has one. -/
theorem issued_of_mem_sectionsUp
    (hparents : ∀ item id, nav.parent? item = some id → nav.Issued (.ofSection id))
    {above : Option SectionId} (habove : ∀ id ∈ above, nav.Issued (.ofSection id)) :
    ∀ id ∈ nav.sectionsUp above, nav.Issued (.ofSection id) := by
  induction above using Navigation.sectionsUp.induct nav with
  | case1 => simp [sectionsUp_none]
  | case2 id ih =>
    intro around haround
    rw [sectionsUp_some, List.mem_cons] at haround
    rcases haround with rfl | haround
    · exact habove _ rfl
    · exact ih (fun parent hparent => hparents _ parent hparent) around haround

/-- A call for a section sets its flag and those of the sections around it. -/
theorem marks_setSectionActive
    (hparents : ∀ item id, nav.parent? item = some id → nav.Issued (.ofSection id))
    {id : SectionId} (hid : nav.Issued (.ofSection id)) (active : Bool) :
    Marks nav (nav.setSectionActive id active) [] (id :: nav.ancestors (.ofSection id))
      active where
  items := read_markUp Navigation.items active (fun _ _ => rfl) ..
  readingOrder := read_markUp Navigation.readingOrder active (fun _ _ => rfl) ..
  links := read_markUp Navigation.linkTable active (fun _ _ => rfl) ..
  pages_issued := by simp
  sections_issued := by
    rw [← sectionsUp_some]
    exact issued_of_mem_sectionsUp hparents (by simpa using hid)
  pages_eq page := by
    rw [if_neg List.not_mem_nil, page?, setSectionActive, pageTable_markUp]
    rfl
  sections_eq sought := by rw [setSectionActive, section?_markUp, sectionsUp_some]

/-- A call for a page sets its flag and those of the sections around it. -/
theorem marks_setPageActive
    (hparents : ∀ item id, nav.parent? item = some id → nav.Issued (.ofSection id))
    {id : PageId} (hid : nav.Issued (.ofPage id)) (active : Bool) :
    Marks nav (nav.setPageActive id active) [id] (nav.ancestors (.ofPage id)) active where
  items := read_markUp Navigation.items active (fun _ _ => rfl) ..
  readingOrder := read_markUp Navigation.readingOrder active (fun _ _ => rfl) ..
  links := read_markUp Navigation.linkTable active (fun _ _ => rfl) ..
  pages_issued := by simpa using hid
  sections_issued := issued_of_mem_sectionsUp hparents (hparents (.ofPage id))
  pages_eq page := by simp only [page?_setPageActive, List.mem_singleton]
  sections_eq := section?_setPageActive nav id active

end Navigation

open Navigation Drafting

/-- **What a call for a flag changes** in a built navigation after any calls: for a section
its flag and those of the sections around it, for a page its own and those of the sections
around it, of which there are none if the page is outside all sections or an orphan.  Every
part that is visited is there, and the loop behind the call ends. -/
theorem marks_of_value_build {spec : Option Spec} {factory : PageFactory}
    {catalog filled : Catalog} {nav : Navigation} (hfactory : MakesNewPages factory)
    (h : (build spec factory catalog).value = (.ok nav, filled)) (calls : List Switch)
    (active : Bool) :
    let reached := nav.switchAll calls
    (∀ id, nav.Issued (.ofSection id) →
      Marks reached (reached.setSectionActive id active) []
          (id :: reached.ancestors (.ofSection id)) active ∧
        (markRound active)^[(reached.ancestors (.ofSection id)).length + 1] (reached, some id) =
          (reached.setSectionActive id active, none)) ∧
      ∀ id, nav.Issued (.ofPage id) →
        Marks reached (reached.setPageActive id active) [id] (reached.ancestors (.ofPage id))
            active ∧
          (markRound active)^[(reached.ancestors (.ofPage id)).length]
              (reached.modifyPage id (fun p => { p with active }), reached.parent? (.ofPage id)) =
            (reached.setPageActive id active, none) ∧
          (.ofPage id ∈ reached.items ∨ .ofPage id ∉ reached.walk →
            reached.ancestors (.ofPage id) = []) := by
  intro reached
  obtain ⟨made, hfinished⟩ := exists_finished_of_value_build hfactory h
  have hplaces : SamePlaces nav reached := nav.samePlaces_switchAll calls
  have hissued : ∀ {item}, nav.Issued item → reached.Issued item :=
    fun hitem => (nav.issued_switchAll calls _).2 hitem
  have hparents : ∀ item id, reached.parent? item = some id → reached.Issued (.ofSection id) := by
    intro item id hid
    rw [hplaces.parents, hfinished.parents, ← hplaces.children] at hid
    exact index_lt_of_mem_children hid
  refine ⟨fun id hid => ⟨?_, ?_⟩, fun id hid => ⟨?_, ?_, fun hplace => ?_⟩⟩
  · exact marks_setSectionActive hparents (hissued hid) active
  · rw [← List.length_cons (a := id), ← sectionsUp_some, iterate_markRound, setSectionActive]
  · exact marks_setPageActive hparents (hissued hid) active
  · have hsame := reached.samePlaces_modifyPage id (fun p => { p with active }) fun _ => rfl
    rw [ancestors, ← hsame.sectionsUp, iterate_markRound, setPageActive]
  · have hnone : nav.parent? (.ofPage id) = none := by
      rw [hplaces.items, hplaces.walk] at hplace
      exact hplace.elim hfinished.parent?_of_mem_items hfinished.parent?_of_notMem_walk
    rw [ancestors, hplaces.parents, hnone, sectionsUp_none]

/-- Calls for a page and for a section of the small site. -/
def smallCalls : List Switch :=
  [.ofPage ⟨1⟩ true, .ofSection ⟨0⟩ false]

theorem exists_marks_smallSite : ∃ nav filled,
    (build (some smallSpec) Page.ofFile smallSite).value = (.ok nav, filled) ∧
      nav.Issued (.ofSection ⟨0⟩) ∧ nav.Issued (.ofPage ⟨2⟩) ∧
      let reached := nav.switchAll smallCalls
      Marks reached (reached.setSectionActive ⟨0⟩ true) []
          (⟨0⟩ :: reached.ancestors (.ofSection ⟨0⟩)) true ∧
        Marks reached (reached.setPageActive ⟨2⟩ true) [⟨2⟩] (reached.ancestors (.ofPage ⟨2⟩))
          true := by
  obtain ⟨nav, filled, made, hbuild, hfinished, hmadePages, hmadeSections⟩ :=
    exists_finished_smallSite
  have hsection : nav.Issued (.ofSection ⟨0⟩) := by
    rw [Issued, hfinished.sections, hmadeSections]
    decide
  have hpage : nav.Issued (.ofPage ⟨2⟩) :=
    Nat.lt_of_lt_of_le (by rw [hmadePages]; decide) hfinished.grown
  obtain ⟨hsections, hpages⟩ :=
    marks_of_value_build (fun title f => ⟨title, f, rfl⟩) hbuild smallCalls true
  exact ⟨nav, filled, hbuild, hsection, hpage, (hsections ⟨0⟩ hsection).1, (hpages ⟨2⟩ hpage).1⟩

end Nav
end DocSite
