import Mathlib.Data.List.Induction
import DocSite.Proofs.Nav.Contents
import DocSite.Proofs.Nav.Shape

/-!
# Which sections are active

Switching a page on or off writes one flag into the page and into every section around
it.  The sections around a page are those that the page is below
(`mem_below_ofSection_iff`), so after any calls a section has the flag of the last call
for a page below it (`section?_switchPages`), and a page that of the last call for
itself (`page?_switchPages`).

That is not yet what the flag of a section is for, namely to say whether the current
page is below it.  A page that is switched off takes the flag from all sections around
it, also from one around another page that is still on.  So a section is active exactly
when some page below it is and the last call for a page below it has not switched that
page off (`active_iff_of_value_build`); in a section around two pages the second half
can fail (`exists_hidden_smallSite`).
-/

namespace DocSite
namespace Nav
namespace Navigation

variable {nav other third : Navigation}

/-! ## What marking leaves -/

/-- Two navigations in which every item stands at the same place. -/
structure SamePlaces (nav other : Navigation) : Prop extends SameForest nav other where
  parents : ∀ item, other.parent? item = nav.parent? item

theorem SamePlaces.trans (h : SamePlaces nav other) (h' : SamePlaces other third) :
    SamePlaces nav third :=
  ⟨h.toSameForest.trans h'.toSameForest, fun item => (h'.parents item).trans (h.parents item)⟩

theorem SamePlaces.sectionsUp (h : SamePlaces nav other) (above : Option SectionId) :
    other.sectionsUp above = nav.sectionsUp above := by
  induction above using Navigation.sectionsUp.induct nav with
  | case1 => rw [sectionsUp_none, sectionsUp_none]
  | case2 id ih => rw [sectionsUp_some, sectionsUp_some, ancestors, ancestors, h.parents, ih]

theorem SamePlaces.ancestors (h : SamePlaces nav other) (item : Item) :
    other.ancestors item = nav.ancestors item := by
  rw [Navigation.ancestors, Navigation.ancestors, h.parents, h.sectionsUp]

theorem section?_markSection (nav : Navigation) (id : SectionId) (active : Bool)
    (sought : SectionId) :
    (nav.markSection id active).section? sought =
      if sought = id then (nav.section? sought).map fun s => { s with active }
      else nav.section? sought := by
  unfold section? markSection
  rw [List.getElem?_modify]
  by_cases hsought : sought = id
  · rw [if_pos hsought, hsought]
    simp
  · have hindex : id.index ≠ sought.index := fun heq => hsought (SectionId.ext heq.symm)
    rw [if_neg hsought]
    simp [hindex]

theorem samePlaces_markSection (nav : Navigation) (id : SectionId) (active : Bool) :
    SamePlaces nav (nav.markSection id active) := by
  refine ⟨⟨rfl, fun item => ?_⟩, fun item => ?_⟩
  · cases item with
    | ofPage _ => rfl
    | ofLink _ => rfl
    | ofSection sought =>
      rw [children, children, section?_markSection]
      split
      · cases nav.section? sought <;> rfl
      · rfl
  · cases item with
    | ofPage _ => rfl
    | ofLink _ => rfl
    | ofSection sought =>
      rw [parent?, parent?, section?_markSection]
      split
      · cases nav.section? sought <;> rfl
      · rfl

theorem samePlaces_markUp (active : Bool) (nav : Navigation) (above : Option SectionId) :
    SamePlaces nav (nav.markUp active above) := by
  induction nav, above using markUp.induct active with
  | case1 nav =>
    rw [markUp]
    exact ⟨⟨rfl, fun _ => rfl⟩, fun _ => rfl⟩
  | case2 nav id ih =>
    rw [markUp]
    exact (nav.samePlaces_markSection id active).trans ih

/-- What marking a section leaves, marking upwards leaves. -/
theorem read_markUp {α : Type} (read : Navigation → α) (active : Bool)
    (h : ∀ nav id, read (nav.markSection id active) = read nav) (nav : Navigation)
    (above : Option SectionId) : read (nav.markUp active above) = read nav := by
  induction nav, above using markUp.induct active with
  | case1 nav => rw [markUp]
  | case2 nav id ih => rw [markUp, ih, h]

theorem pageTable_markUp (active : Bool) (nav : Navigation) (above : Option SectionId) :
    (nav.markUp active above).pageTable = nav.pageTable :=
  read_markUp Navigation.pageTable active (fun _ _ => rfl) nav above

/-- Marking upwards sets the flags of the sections on the way, and no others. -/
theorem section?_markUp (active : Bool) (nav : Navigation) (above : Option SectionId)
    (sought : SectionId) :
    (nav.markUp active above).section? sought =
      if sought ∈ nav.sectionsUp above then (nav.section? sought).map fun s => { s with active }
      else nav.section? sought := by
  induction nav, above using markUp.induct active with
  | case1 nav =>
    rw [markUp, sectionsUp_none, if_neg (List.not_mem_nil)]
  | case2 nav id ih =>
    rw [markUp, ih, (nav.samePlaces_markSection id active).sectionsUp, section?_markSection,
      sectionsUp_some, ← ancestors]
    -- a section that is met twice gets the same flag twice
    by_cases hsought : sought = id
    · cases nav.section? sought <;> simp [hsought]
    · simp [hsought]

/-! ## Switching pages on and off -/

theorem page?_setPageActive (nav : Navigation) (id : PageId) (active : Bool) (sought : PageId) :
    (nav.setPageActive id active).page? sought =
      if sought = id then (nav.page? sought).map fun p => { p with active }
      else nav.page? sought := by
  unfold page? setPageActive
  rw [pageTable_markUp, modifyPage, List.getElem?_modify]
  by_cases hsought : sought = id
  · rw [if_pos hsought, hsought]
    simp
  · have hindex : id.index ≠ sought.index := fun heq => hsought (PageId.ext heq.symm)
    rw [if_neg hsought]
    simp [hindex]

theorem samePlaces_modifyPage (nav : Navigation) (id : PageId) (change : Page → Page)
    (h : ∀ p, (change p).parent = p.parent) : SamePlaces nav (nav.modifyPage id change) := by
  refine ⟨⟨rfl, fun item => by cases item <;> rfl⟩, fun item => ?_⟩
  cases item with
  | ofSection _ => rfl
  | ofLink _ => rfl
  | ofPage sought =>
    show (nav.pageTable.modify id.index change)[sought.index]?.bind Page.parent =
      nav.pageTable[sought.index]?.bind Page.parent
    rw [List.getElem?_modify]
    cases nav.pageTable[sought.index]? with
    | none => rfl
    | some p =>
      show (if id.index = sought.index then change p else p).parent = p.parent
      split
      · exact h p
      · rfl

theorem samePlaces_setPageActive (nav : Navigation) (id : PageId) (active : Bool) :
    SamePlaces nav (nav.setPageActive id active) :=
  (nav.samePlaces_modifyPage id (fun p => { p with active }) fun _ => rfl).trans
    (samePlaces_markUp active _ _)

/-- Switching a page sets the flags of the sections around it, and no others. -/
theorem section?_setPageActive (nav : Navigation) (id : PageId) (active : Bool)
    (sought : SectionId) :
    (nav.setPageActive id active).section? sought =
      if sought ∈ nav.ancestors (.ofPage id)
      then (nav.section? sought).map fun s => { s with active } else nav.section? sought := by
  have hplaces := nav.samePlaces_modifyPage id (fun p => { p with active }) fun _ => rfl
  rw [setPageActive, section?_markUp, hplaces.sectionsUp, ancestors]
  rfl

/-- Some pages switched on or off in turn. -/
def switchPages (nav : Navigation) (switches : List (PageId × Bool)) : Navigation :=
  switches.foldl (fun made switch => made.setPageActive switch.1 switch.2) nav

theorem switchPages_concat (nav : Navigation) (switches : List (PageId × Bool))
    (switch : PageId × Bool) :
    nav.switchPages (switches ++ [switch]) =
      (nav.switchPages switches).setPageActive switch.1 switch.2 := by
  rw [switchPages, List.foldl_append]
  rfl

/-- Switching pages moves nothing. -/
theorem samePlaces_switchPages (nav : Navigation) (switches : List (PageId × Bool)) :
    SamePlaces nav (nav.switchPages switches) := by
  induction switches using List.reverseRecOn with
  | nil => exact ⟨⟨rfl, fun _ => rfl⟩, fun _ => rfl⟩
  | append_singleton switches switch ih =>
    rw [switchPages_concat]
    exact ih.trans (samePlaces_setPageActive _ _ _)

end Navigation

/-- What the last of some switches has said about pages of a kind, if one was about any. -/
def lastFlag (concerns : PageId → Prop) [DecidablePred concerns]
    (switches : List (PageId × Bool)) : Option Bool :=
  (switches.reverse.find? fun switch => concerns switch.1).map Prod.snd

section LastFlag

variable (concerns : PageId → Prop) [DecidablePred concerns]

theorem lastFlag_concat (switches : List (PageId × Bool)) (switch : PageId × Bool) :
    lastFlag concerns (switches ++ [switch]) =
      if concerns switch.1 then some switch.2 else lastFlag concerns switches := by
  unfold lastFlag
  rw [List.reverse_append, List.reverse_singleton, List.singleton_append, List.find?_cons]
  by_cases h : concerns switch.1 <;> simp [h]

variable {concerns} {switches : List (PageId × Bool)}

/-- What was said last about pages of a kind was said last about one of them. -/
theorem exists_lastFlag_eq {active : Bool} (h : lastFlag concerns switches = some active) :
    ∃ page, concerns page ∧ lastFlag (· = page) switches = some active := by
  induction switches using List.reverseRecOn with
  | nil => simp [lastFlag] at h
  | append_singleton switches switch ih =>
    rw [lastFlag_concat] at h
    by_cases hconcerns : concerns switch.1
    · rw [if_pos hconcerns] at h
      exact ⟨switch.1, hconcerns, by rw [lastFlag_concat, if_pos rfl, h]⟩
    · rw [if_neg hconcerns] at h
      obtain ⟨page, hpage, hlast⟩ := ih h
      have hne : switch.1 ≠ page := fun heq => hconcerns (heq ▸ hpage)
      exact ⟨page, hpage, by rw [lastFlag_concat, if_neg hne, hlast]⟩

theorem lastFlag_ne_none {page : PageId} (hpage : concerns page)
    (h : lastFlag (· = page) switches ≠ none) : lastFlag concerns switches ≠ none := by
  simp only [lastFlag, ne_eq, Option.map_eq_none_iff, List.find?_eq_none, List.mem_reverse,
    decide_eq_true_eq, not_forall, not_not] at h ⊢
  obtain ⟨switch, hmem, rfl⟩ := h
  exact ⟨switch, hmem, hpage⟩

end LastFlag

namespace Navigation

variable {nav : Navigation}

/-- **A page has the flag of the last call for it.** -/
theorem page?_switchPages (nav : Navigation) (switches : List (PageId × Bool)) (sought : PageId) :
    (nav.switchPages switches).page? sought = (nav.page? sought).map fun p =>
      { p with active := (lastFlag (· = sought) switches).getD p.active } := by
  induction switches using List.reverseRecOn with
  | nil => simp [switchPages, lastFlag]
  | append_singleton switches switch ih =>
    rw [switchPages_concat, page?_setPageActive, ih, lastFlag_concat]
    by_cases hsought : switch.1 = sought
    · rw [if_pos hsought, if_pos hsought.symm, Option.map_map]
      rfl
    · rw [if_neg hsought, if_neg (Ne.symm hsought)]

/-- **A section has the flag of the last call for a page that it is around.** -/
theorem section?_switchPages (nav : Navigation) (switches : List (PageId × Bool))
    (sought : SectionId) :
    (nav.switchPages switches).section? sought = (nav.section? sought).map fun s =>
      { s with active := (lastFlag (fun page => sought ∈ nav.ancestors (.ofPage page))
          switches).getD s.active } := by
  induction switches using List.reverseRecOn with
  | nil => simp [switchPages, lastFlag]
  | append_singleton switches switch ih =>
    rw [switchPages_concat, section?_setPageActive, ih, lastFlag_concat,
      (nav.samePlaces_switchPages switches).ancestors]
    by_cases hsought : sought ∈ nav.ancestors (.ofPage switch.1)
    · rw [if_pos hsought, if_pos hsought, Option.map_map]
      rfl
    · rw [if_neg hsought, if_neg hsought]

/-! ## Below and around -/

/-- What is in something below an item is below it as well. -/
theorem mem_below_of_mem_children {top item child : Item} (h : item ∈ nav.below top)
    (hchild : child ∈ nav.children item) : child ∈ nav.below top := by
  have hvisits : nav.visits [top] = nav.below top := by
    rw [visits_eq_flatMap_below, List.flatMap_singleton]
  rw [← hvisits] at h ⊢
  rw [(nav.visits_perm [top]).mem_iff, List.mem_append, List.mem_flatMap]
  exact Or.inr ⟨item, h, hchild⟩

/-- What holds of an item, and of what is in an item when it holds of the item, holds of
everything below. -/
theorem below_induction {P : Item → Prop} {top : Item} (htop : P top)
    (hchild : ∀ item child, P item → child ∈ nav.children item → P child) :
    ∀ item ∈ nav.below top, P item := by
  induction top using Navigation.below.induct nav with
  | case1 top ih =>
    intro item hitem
    rw [below_eq, List.mem_cons, List.mem_flatMap] at hitem
    rcases hitem with rfl | ⟨child, hmem, hitem⟩
    · exact htop
    · exact ih ⟨child, hmem⟩ (hchild top child htop hmem) item hitem

/-- **What is below a section is what the section is around**, where parents and children
agree. -/
theorem mem_below_ofSection_iff
    (hparent : ∀ item id, nav.parent? item = some id ↔ item ∈ nav.children (.ofSection id))
    (item : Item) (id : SectionId) :
    item ∈ nav.below (.ofSection id) ↔ item = .ofSection id ∨ id ∈ nav.ancestors item := by
  constructor
  · intro hitem
    refine below_induction (P := fun item => item = .ofSection id ∨ id ∈ nav.ancestors item)
      (Or.inl rfl) (fun around child haround hchild => Or.inr ?_) item hitem
    match around, hchild with
    | .ofSection direct, hchild =>
      rw [ancestors, (hparent child direct).2 hchild, sectionsUp_some, List.mem_cons]
      exact haround.imp (fun heq => (Item.ofSection.inj heq).symm) fun hmem => hmem
    | .ofPage _, hchild | .ofLink _, hchild => simp [children] at hchild
  · have hup : ∀ above, id ∈ nav.sectionsUp above → ∀ item, nav.parent? item = above →
        item ∈ nav.below (.ofSection id) := by
      intro above
      induction above using Navigation.sectionsUp.induct nav with
      | case1 => simp [sectionsUp_none]
      | case2 direct ih =>
        intro hmem item hitem
        have hchild : item ∈ nav.children (.ofSection direct) := (hparent item direct).1 hitem
        rw [sectionsUp_some, List.mem_cons] at hmem
        refine mem_below_of_mem_children ?_ hchild
        rcases hmem with rfl | hmem
        · rw [below_eq]
          exact List.mem_cons_self ..
        · exact ih hmem (.ofSection direct) rfl
    rintro (rfl | hmem)
    · rw [below_eq]
      exact List.mem_cons_self ..
    · exact hup _ hmem item rfl

/-- A page below a section is there. -/
theorem exists_page?_of_mem_ancestors {page : PageId} {id : SectionId}
    (h : id ∈ nav.ancestors (.ofPage page)) : ∃ p, nav.page? page = some p := by
  rw [← Option.isSome_iff_exists, Option.isSome_iff_ne_none]
  intro hnone
  rw [ancestors, parent?, hnone, Option.bind_none, sectionsUp_none] at h
  exact List.not_mem_nil h

/-- Where nothing is active at first, a section is active after some calls exactly when a
page that it is around is, and the last of the calls for such pages has not switched its
page off. -/
theorem active_switchPages_iff (hpages : ∀ id p, nav.page? id = some p → p.active = false)
    (hsections : ∀ id s, nav.section? id = some s → s.active = false)
    (switches : List (PageId × Bool)) {id : SectionId} {s : Section}
    (hs : (nav.switchPages switches).section? id = some s) :
    s.active = true ↔
      (∃ page p, id ∈ nav.ancestors (.ofPage page) ∧
        (nav.switchPages switches).page? page = some p ∧ p.active = true) ∧
      lastFlag (fun page => id ∈ nav.ancestors (.ofPage page)) switches ≠ some false := by
  have hactive : s.active = true ↔
      lastFlag (fun page => id ∈ nav.ancestors (.ofPage page)) switches = some true := by
    rw [section?_switchPages, Option.map_eq_some_iff] at hs
    obtain ⟨old, hold, rfl⟩ := hs
    rw [hsections id old hold]
    cases lastFlag (fun page => id ∈ nav.ancestors (.ofPage page)) switches <;> simp
  have hpage : ∀ page p, (nav.switchPages switches).page? page = some p →
      (p.active = true ↔ lastFlag (· = page) switches = some true) := by
    intro page p hp
    rw [page?_switchPages, Option.map_eq_some_iff] at hp
    obtain ⟨old, hold, rfl⟩ := hp
    rw [hpages page old hold]
    cases lastFlag (· = page) switches <;> simp
  rw [hactive]
  constructor
  · intro hlast
    obtain ⟨page, haround, hpageLast⟩ := exists_lastFlag_eq hlast
    obtain ⟨old, hold⟩ := exists_page?_of_mem_ancestors haround
    have hp := nav.page?_switchPages switches page
    rw [hold, Option.map_some] at hp
    refine ⟨⟨page, _, haround, hp, (hpage page _ hp).2 hpageLast⟩, ?_⟩
    rw [hlast]
    simp
  · rintro ⟨⟨page, p, haround, hp, hpageActive⟩, hlast⟩
    have hcalled : lastFlag (· = page) switches ≠ none := by
      rw [(hpage page p hp).1 hpageActive]
      simp
    have hsome : lastFlag (fun page => id ∈ nav.ancestors (.ofPage page)) switches ≠ none :=
      lastFlag_ne_none haround hcalled
    cases hflag : lastFlag (fun page => id ∈ nav.ancestors (.ofPage page)) switches with
    | none => exact absurd hflag hsome
    | some active => cases active <;> simp_all

end Navigation

/-! ## A built navigation -/

open Navigation Drafting

/-- **When a section is active**: in every built navigation, after any calls that switch
pages on and off, a section is active exactly when some page below it is active and the
last of the calls for pages below it has not switched its page off. -/
theorem active_iff_of_value_build {spec : Option Spec} {factory : PageFactory}
    {catalog filled : Catalog} {nav : Navigation} (hfactory : MakesNewPages factory)
    (h : (build spec factory catalog).value = (.ok nav, filled))
    (switches : List (PageId × Bool)) {id : SectionId} {s : Section}
    (hs : (nav.switchPages switches).section? id = some s) :
    s.active = true ↔
      (∃ page p, .ofPage page ∈ (nav.switchPages switches).below (.ofSection id) ∧
        (nav.switchPages switches).page? page = some p ∧ p.active = true) ∧
      lastFlag (fun page => .ofPage page ∈ nav.below (.ofSection id)) switches ≠ some false := by
  obtain ⟨hmade, hsections⟩ := made_of_value_build h
  obtain ⟨entries, items, made, hsound, -, hplaced, hfinish⟩ := exists_of_value_build h
  have hfinished := finished_of_placedAll hfactory hplaced hsound hfinish
  have hbelow : ∀ page, .ofPage page ∈ nav.below (.ofSection id) ↔
      id ∈ nav.ancestors (.ofPage page) := by
    intro page
    rw [mem_below_ofSection_iff hfinished.parents]
    simp
  have hpages : ∀ id p, nav.page? id = some p → p.active = false := by
    intro id p hp
    obtain ⟨title, f, -, hcontents⟩ :=
      hmade p.withoutPlace (List.mem_map_of_mem (List.mem_of_getElem? hp))
    obtain ⟨given, g, hpage⟩ := hfactory title f
    have hactive : p.active = (factory title f).active := by
      simpa [Page.withoutPlace] using congrArg Page.active hcontents
    rw [hactive, hpage, Page.ofFile]
  simp only [((nav.samePlaces_switchPages switches).toSameForest).below, hbelow]
  exact active_switchPages_iff hpages
    (fun id s hs => hsections s (List.mem_of_getElem? hs)) switches hs

/-- On the small site, the page of the guide and a page in a section of the guide switched
on, and then the first switched off again. -/
def smallSwitches : List (PageId × Bool) :=
  [(⟨1⟩, true), (⟨2⟩, true), (⟨1⟩, false)]

theorem exists_active_iff_smallSite : ∃ nav filled s,
    (build (some smallSpec) Page.ofFile smallSite).value = (.ok nav, filled) ∧
      (nav.switchPages smallSwitches).section? ⟨0⟩ = some s ∧ s.active = true ∧
      (s.active = true ↔
        (∃ page p, .ofPage page ∈ (nav.switchPages smallSwitches).below (.ofSection ⟨0⟩) ∧
          (nav.switchPages smallSwitches).page? page = some p ∧ p.active = true) ∧
        lastFlag (fun page => .ofPage page ∈ nav.below (.ofSection ⟨0⟩)) smallSwitches ≠
          some false) := by
  have hactive : (build (some smallSpec) Page.ofFile smallSite).value.1.toOption.bind
      (fun nav => ((nav.switchPages smallSwitches).section? ⟨0⟩).map Section.active) =
        some true := by
    decide +kernel
  rcases hbuild : (build (some smallSpec) Page.ofFile smallSite).value with ⟨_ | nav, filled⟩
  · rw [hbuild] at hactive
    simp [Except.toOption] at hactive
  · rw [hbuild] at hactive
    obtain ⟨s, hs, hs'⟩ := Option.map_eq_some_iff.1 hactive
    exact ⟨nav, filled, s, rfl, hs, hs',
      active_iff_of_value_build (fun title f => ⟨title, f, rfl⟩) hbuild smallSwitches hs⟩

/-- **A section can be inactive with an active page below it**: the page in the inner
section is still on, and the guide around both is not. -/
theorem exists_hidden_smallSite : ∃ nav filled,
    (build (some smallSpec) Page.ofFile smallSite).value = (.ok nav, filled) ∧
      ¬ ∀ id s, (nav.switchPages smallSwitches).section? id = some s →
        (s.active = true ↔
          ∃ page p, .ofPage page ∈ (nav.switchPages smallSwitches).below (.ofSection id) ∧
            (nav.switchPages smallSwitches).page? page = some p ∧ p.active = true) := by
  have hshown : (build (some smallSpec) Page.ofFile smallSite).value.1.toOption.map (fun nav =>
      let shown := nav.switchPages smallSwitches
      ((shown.section? ⟨1⟩).map Section.active, (shown.page? ⟨2⟩).map Page.active,
        decide (.ofPage ⟨2⟩ ∈ shown.below (.ofSection ⟨1⟩)))) =
      some (some false, some true, true) := by
    decide +kernel
  rcases hbuild : (build (some smallSpec) Page.ofFile smallSite).value with ⟨_ | nav, filled⟩
  · rw [hbuild] at hshown
    simp [Except.toOption] at hshown
  · rw [hbuild] at hshown
    have hflags := Option.some.inj hshown
    simp only [Prod.mk.injEq, decide_eq_true_eq] at hflags
    obtain ⟨hsection, hpage, hbelow⟩ := hflags
    obtain ⟨s, hs, hinactive⟩ := Option.map_eq_some_iff.1 hsection
    obtain ⟨p, hp, hactive⟩ := Option.map_eq_some_iff.1 hpage
    refine ⟨nav, filled, rfl, fun hclaim => ?_⟩
    have htrue := (hclaim ⟨1⟩ s hs).2 ⟨⟨2⟩, p, hbelow, hp, hactive⟩
    rw [hinactive] at htrue
    exact Bool.false_ne_true htrue

end Nav
end DocSite
