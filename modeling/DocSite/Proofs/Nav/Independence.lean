import DocSite.Proofs.Catalog.Session
import DocSite.Proofs.Nav.Faults

/-!
# A build does not depend on what was built before

The files of a catalog carry the pages that an earlier build gave them, and a build reads
and writes the same places: to see whether a file is named again, to find the orphans, and
whatever the factory looks at.  It takes all pages away before it reads any of them.  So
two catalogs that differ in nothing but the pages of their files are built into the same
navigation or refused for the same reason, with the same reports, and the same pages are
attached afterwards (`seen_build`).

After the pages are gone the two catalogs may still differ, for one of them may have an
index already.  The index cannot be told from outside, but it stays in the draft through
the whole reading.  That is why the two readings are kept in step by what is seen of their
drafts (`Draft.sight`), one step at a time (`blind_convert`).  Nothing in this needs all the
files: any look at the catalogs does by which each leaf finds its file and the orphans are
found (`Drafting.LooksAt`, `map_finish_congr`).

What has been done with a catalog changes its files by their pages only, as long as no file
is added, taken out or published elsewhere (`map_detach_handled`); so it cannot be told
from a later build.  A build is such a thing too, and therefore building again gives the
same (`build_forgets`).
-/

namespace DocSite
namespace Nav

open Drafting

/-! ## What is seen of a draft -/

/-- What is seen of a draft: the files and the parts, but not the index. -/
structure Sight where
  files : List SourceFile
  pages : List Page
  sections : List Section
  links : List Link

namespace Draft

/-- A draft as it is seen. -/
def sight (draft : Draft) : Sight :=
  ⟨draft.catalog.files, draft.pages, draft.sections, draft.links⟩

/-- A draft as it is seen by a look at its catalog. -/
def through (look : Catalog → List SourceFile) (draft : Draft) : Sight :=
  ⟨look draft.catalog, draft.pages, draft.sections, draft.links⟩

variable {draft other : Draft}

theorem through_eq_iff {look : Catalog → List SourceFile} :
    draft.through look = other.through look ↔
      look draft.catalog = look other.catalog ∧ draft.pages = other.pages ∧
        draft.sections = other.sections ∧ draft.links = other.links :=
  Sight.mk.injEq .. ▸ Iff.rfl

theorem sight_eq_iff : draft.sight = other.sight ↔
    draft.catalog.files = other.catalog.files ∧ draft.pages = other.pages ∧
      draft.sections = other.sections ∧ draft.links = other.links :=
  through_eq_iff

end Draft

/-! ## Two readings in step -/

variable {α β : Type}

/-- Drafting that looks no further than a look: from drafts that are seen alike it comes to
the same answer with the same reports, and leaves drafts that are seen alike. -/
def Drafting.LooksAt (look : Catalog → List SourceFile) (drafting : Drafting α) : Prop :=
  ∀ draft other : Draft, draft.through look = other.through look →
    Prod.map id (Draft.through look) <$> drafting.run draft =
      Prod.map id (Draft.through look) <$> drafting.run other

namespace Drafting

variable {look : Catalog → List SourceFile}

theorem looksAt_pure (a : α) : LooksAt look (pure a) := by
  intro draft other hsight
  ext1
  · rfl
  · exact congrArg (Prod.mk a) hsight

theorem LooksAt.bind {first : Drafting α} {next : α → Drafting β} (h : LooksAt look first)
    (hnext : ∀ a, LooksAt look (next a)) : LooksAt look (first >>= next) := by
  intro draft other hsight
  have hfirst := h draft other hsight
  rcases hrun : first.run draft with ⟨events, a, made⟩
  rcases hrun' : first.run other with ⟨events', a', made'⟩
  rw [hrun, hrun'] at hfirst
  obtain ⟨rfl, rfl, hmade⟩ :
      events = events' ∧ a = a' ∧ made.through look = made'.through look := by
    simpa [Journal.ext_iff] using hfirst
  have hrest := hnext a made made' hmade
  rw [StateT.run_bind, StateT.run_bind, hrun, hrun', map_bind, map_bind]
  ext1
  · show events ++ (Prod.map id (Draft.through look) <$> (next a).run made).events =
      events ++ (Prod.map id (Draft.through look) <$> (next a).run made').events
    rw [hrest]
  · show (Prod.map id (Draft.through look) <$> (next a).run made).value =
      (Prod.map id (Draft.through look) <$> (next a).run made').value
    rw [hrest]

/-- A leaf looks no further than a look by which its file is found and attached. -/
theorem looksAt_leaf (factory : PageFactory) (title : Option String) {target : String}
    (h : ∀ c d : Catalog, look c = look d → ∀ id,
      (c.attach (targetUri target) id).1 = (d.attach (targetUri target) id).1 ∧
        look (c.attach (targetUri target) id).2 = look (d.attach (targetUri target) id).2) :
    LooksAt look (leaf factory title target) := by
  intro draft other hsight
  obtain ⟨hfiles, hpages, hsections, hlinks⟩ := Draft.through_eq_iff.1 hsight
  obtain ⟨hfound, hleft⟩ := h _ _ hfiles ⟨draft.pages.length⟩
  rw [run_leaf, run_leaf, ← hpages]
  rcases hattach : draft.catalog.attach (targetUri target) ⟨draft.pages.length⟩ with ⟨found, left⟩
  rcases hattach' : other.catalog.attach (targetUri target) ⟨draft.pages.length⟩ with
    ⟨found', left'⟩
  rw [hattach, hattach'] at hfound hleft
  obtain rfl : found = found' := hfound
  have hsight' : look left = look left' := hleft
  cases found with
  | none => ext1 <;> simp [Draft.through, *]
  | some f => ext1 <;> simp [Draft.through, *]

theorem looksAt_addSection (title : String) (children : List Item) :
    LooksAt look (addSection title children) := by
  intro draft other hsight
  obtain ⟨hfiles, hpages, hsections, hlinks⟩ := Draft.through_eq_iff.1 hsight
  ext1
  · rfl
  · simp [addSection, Draft.through, *]

end Drafting

/-! ## What reading sees -/

/-- What is seen of an answer and the draft that is left. -/
def Drafting.seen (answer : α × Draft) : α × Sight :=
  (answer.1, answer.2.sight)

/-- Drafting that does not look behind what is seen: from drafts that are seen alike it
comes to the same answer with the same reports, and leaves drafts that are seen alike. -/
def Drafting.Blind (drafting : Drafting α) : Prop :=
  ∀ draft other : Draft, draft.sight = other.sight →
    seen <$> drafting.run draft = seen <$> drafting.run other

namespace Drafting

theorem blind_pure (a : α) : Blind (pure a) :=
  looksAt_pure a

theorem Blind.bind {first : Drafting α} {next : α → Drafting β} (h : Blind first)
    (hnext : ∀ a, Blind (next a)) : Blind (first >>= next) :=
  LooksAt.bind h hnext

/-- Drafting as a reading that is not refused. -/
theorem Blind.lift {drafting : Drafting α} (h : Blind drafting) :
    Blind (drafting : Reading α).run := by
  have hrun : (drafting : Reading α).run = do return .ok (← drafting) := by simp
  rw [hrun]
  exact h.bind fun a => blind_pure (Except.ok a)

/-- A leaf asks for a file by its name, and what it is answered depends on the files. -/
theorem blind_leaf (factory : PageFactory) (title : Option String) (target : String) :
    Blind (leaf factory title target) := by
  refine looksAt_leaf factory title fun c d hfiles id => ?_
  rw [Catalog.fst_attach, Catalog.fst_attach, Catalog.files_attach, Catalog.files_attach, hfiles]
  exact ⟨rfl, rfl⟩

theorem blind_addSection (title : String) (children : List Item) :
    Blind (addSection title children) :=
  looksAt_addSection title children

/-- **Reading sees nothing but the files**, whatever the specification is. -/
theorem blind_convert (factory : PageFactory) (location : List Step) (spec : Spec) :
    Blind (Reading.convert factory location spec).run := by
  have hclosed : Reading.Closed factory fun _ reading => Blind reading.run := {
    pure := fun a => blind_pure (Except.ok a)
    throw := fun refusal => blind_pure (Except.error refusal)
    bind := by
      intro _ _ reading next hreading hnext
      rw [ExceptT.run_bind]
      refine hreading.bind fun answer => ?_
      cases answer with
      | error refusal => exact blind_pure (Except.error refusal)
      | ok a => exact hnext a
    leaf := fun title target => (blind_leaf factory title target).lift
    addSection := fun title children => (blind_addSection title children).lift }
  exact hclosed.convert location spec

end Drafting

/-! ## The passes -/

/-- Which files are orphans depends on the files. -/
theorem seen_addOrphans {c d : Catalog} (h : c.files = d.files) (factory : PageFactory)
    (nav : Navigation) :
    Desk.seen <$> nav.addOrphans factory c = Desk.seen <$> nav.addOrphans factory d := by
  rw [Navigation.addOrphans, Navigation.addOrphans, Catalog.visit, Catalog.visit]
  simp only [h]
  split
  · rfl
  · rfl

/-- Finishing sees no more of a catalog than looking for the orphans does. -/
theorem map_finish_congr {look : Catalog → List SourceFile} {draft other : Draft}
    (hsight : draft.through look = other.through look) (factory : PageFactory)
    (horphans : ∀ nav : Navigation,
      Prod.map id look <$> nav.addOrphans factory draft.catalog =
        Prod.map id look <$> nav.addOrphans factory other.catalog)
    (items : List Item) (hsound : Sound draft) (hsound' : Sound other) :
    Prod.map id look <$> finish factory items draft hsound =
      Prod.map id look <$> finish factory items other hsound' := by
  obtain ⟨-, hpages, hsections, hlinks⟩ := Draft.through_eq_iff.1 hsight
  have hforest : Navigation.ofDraft items draft hsound =
      Navigation.ofDraft items other hsound' := by
    obtain ⟨catalog, pages, sections, links⟩ := draft
    obtain ⟨catalog', pages', sections', links'⟩ := other
    obtain rfl : pages = pages' := hpages
    obtain rfl : sections = sections' := hsections
    obtain rfl : links = links' := hlinks
    rfl
  have hfinish : ∀ (made : Draft) (h : Sound made),
      Prod.map id look <$> finish factory items made h =
        (Prod.map id look <$>
          (Navigation.ofDraft items made h).listPages.assignParents.addOrphans factory
            made.catalog) >>= fun completed => do
              checkLinks completed.1.assignNeighbours
              return (completed.1.assignNeighbours, completed.2) := by
    intro made h
    simp [finish]
  rw [hfinish, hfinish, horphans, hforest]

/-! ## Building -/

/-- Two builds are seen alike when they read the same items with the same reports and
finish alike. -/
theorem map_build_of_made {look : Catalog → List SourceFile} {spec : Option Spec}
    {factory : PageFactory} {c d : Catalog} {items : List Item} {made made' : Draft}
    (hmade : (readingOf spec factory c).value = (.ok items, made))
    (hmade' : (readingOf spec factory d).value = (.ok items, made'))
    (hevents : (readingOf spec factory c).events = (readingOf spec factory d).events)
    (hfinish : Prod.map id look <$> finish factory items made (sound_of_value_convert hmade) =
      Prod.map id look <$> finish factory items made' (sound_of_value_convert hmade')) :
    Prod.map id look <$> build spec factory c = Prod.map id look <$> build spec factory d := by
  have hreports := congrArg Journal.events hfinish
  rw [Journal.events_map, Journal.events_map] at hreports
  obtain ⟨hnav, hfiles⟩ := Prod.mk.inj (congrArg Journal.value hfinish)
  rw [build_of_made hmade, build_of_made hmade', hevents]
  ext1
  · rw [Journal.events_map, Journal.events_map]
    exact congrArg (_ ++ ·) hreports
  · rw [Journal.value_map, Journal.value_map]
    exact Prod.ext (congrArg Except.ok hnav) hfiles

/-- **A build forgets the pages that files had.**  Two catalogs that differ in nothing but
the pages of their files are built alike: the answers and the reports are the same, and
so are the files afterwards with the pages that they have then. -/
theorem seen_build {c d : Catalog}
    (h : c.files.map SourceFile.detach = d.files.map SourceFile.detach) (spec : Option Spec)
    (factory : PageFactory) :
    Desk.seen <$> build spec factory c = Desk.seen <$> build spec factory d := by
  have hsight : (Draft.start c).sight = (Draft.start d).sight := by
    rw [Draft.sight_eq_iff, Draft.start, Draft.start, Catalog.files_detachAll,
      Catalog.files_detachAll]
    exact ⟨h, rfl, rfl, rfl⟩
  have hspec : effectiveSpec spec (Draft.start c).catalog =
      effectiveSpec spec (Draft.start d).catalog := by
    rw [effectiveSpec, effectiveSpec, Catalog.documentation, Catalog.documentation,
      (Draft.sight_eq_iff.1 hsight).1]
  have hread : seen <$> readingOf spec factory c = seen <$> readingOf spec factory d := by
    rw [readingOf, readingOf, ← hspec]
    exact blind_convert factory [] _ _ _ hsight
  have hevents : (readingOf spec factory c).events = (readingOf spec factory d).events := by
    rw [← Journal.events_map seen, hread, Journal.events_map]
  have hvalue : seen (readingOf spec factory c).value = seen (readingOf spec factory d).value := by
    rw [← Journal.value_map seen, hread, Journal.value_map]
  rcases hmade : (readingOf spec factory c).value with ⟨result, made⟩
  rcases hmade' : (readingOf spec factory d).value with ⟨result', made'⟩
  rw [hmade, hmade'] at hvalue
  obtain ⟨hresult, hleft⟩ : result = result' ∧ made.sight = made'.sight := Prod.mk.inj hvalue
  subst hresult
  cases result with
  | error refusal =>
    rw [build_of_refused hmade, build_of_refused hmade', hevents]
    ext1
    · rfl
    · show (Except.error refusal, made.catalog.detachAll.files) =
        (Except.error refusal, made'.catalog.detachAll.files)
      rw [Catalog.files_detachAll, Catalog.files_detachAll, (Draft.sight_eq_iff.1 hleft).1]
  | ok items =>
    exact map_build_of_made hmade hmade' hevents (map_finish_congr hleft factory
      (seen_addOrphans (Draft.sight_eq_iff.1 hleft).1 factory) items _ _)

/-! ## What was done before -/

/-- A build changes nothing about files but their pages, whether it is refused or not. -/
theorem map_detach_build (spec : Option Spec) (factory : PageFactory) (c : Catalog) :
    (build spec factory c).value.2.files.map SourceFile.detach =
      c.files.map SourceFile.detach := by
  rcases hbuild : (build spec factory c).value with ⟨refusal | nav, filled⟩
  · have hrefused : (build spec factory c).value.1 = .error refusal := by rw [hbuild]
    have hfiles := files_of_fst_value_build spec factory c hrefused
    rw [hbuild] at hfiles
    rw [hfiles, List.map_map]
    rfl
  · obtain ⟨entries, items, made, hsound, -, hplaced, hfinish⟩ := exists_of_value_build hbuild
    exact map_detach_of_finish hplaced hsound hfinish

/-- What can be done with a catalog while its files stay: it is built, pages are attached
and taken away, and files are looked up. -/
inductive Handling where
  | build (spec : Option Spec) (factory : PageFactory)
  | attach (srcUri : String) (id : PageId)
  | detach (srcUri : String)
  | get (srcUri : String)

/-- The catalog that is left. -/
def Handling.apply (c : Catalog) : Handling → Catalog
  | build spec factory => (Nav.build spec factory c).value.2
  | attach srcUri id => (c.attach srcUri id).2
  | detach srcUri => (c.detach srcUri).2
  | get srcUri => (c.get srcUri).2

theorem map_detach_apply (c : Catalog) (handling : Handling) :
    (handling.apply c).files.map SourceFile.detach = c.files.map SourceFile.detach := by
  cases handling with
  | build spec factory => exact map_detach_build spec factory c
  | attach srcUri id => exact c.map_detach_attach srcUri id
  | detach srcUri =>
    rw [Handling.apply, Catalog.files_detach, List.map_map]
    refine List.map_congr_left fun f _ => ?_
    rw [Function.comp_apply]
    split <;> rfl
  | get srcUri => rfl

/-- However long a catalog is handled, its files change by their pages only. -/
theorem map_detach_handled (c : Catalog) (history : List Handling) :
    (history.foldl Handling.apply c).files.map SourceFile.detach =
      c.files.map SourceFile.detach := by
  induction history generalizing c with
  | nil => rfl
  | cons handling rest ih => rw [List.foldl_cons, ih, map_detach_apply]

/-- **A build does not depend on what was built before.**  Of two catalogs that differ in
nothing but the pages of their files, one may have been handled before in whatever way:
they are built alike.  In particular building again gives the same. -/
theorem build_forgets {c d : Catalog}
    (h : c.files.map SourceFile.detach = d.files.map SourceFile.detach) (spec : Option Spec)
    (factory : PageFactory) :
    Desk.seen <$> build spec factory c = Desk.seen <$> build spec factory d ∧
      (∀ history : List Handling,
        Desk.seen <$> build spec factory (history.foldl Handling.apply c) =
          Desk.seen <$> build spec factory d) ∧
      Desk.seen <$> build spec factory (build spec factory c).value.2 =
        Desk.seen <$> build spec factory c :=
  ⟨seen_build h spec factory,
    fun history => seen_build ((map_detach_handled c history).trans h) spec factory,
    seen_build (map_detach_build spec factory c) spec factory⟩

/-- A page that nobody made, a look at another file and a build that is refused: none of
it is left when the small site is built. -/
theorem build_forgets_faultySpec :
    (smallSite.attach "b.md" ⟨7⟩).2.files.map SourceFile.detach =
        smallSite.files.map SourceFile.detach ∧
      (smallSite.attach "b.md" ⟨7⟩).2.files ≠ smallSite.files ∧
      Desk.seen <$> build (some smallSpec) Page.ofFile
          ([Handling.get "logo.png", .build (some faultySpec) Page.ofFile].foldl Handling.apply
            (smallSite.attach "b.md" ⟨7⟩).2) =
        Desk.seen <$> build (some smallSpec) Page.ofFile smallSite := by
  have hpages : (smallSite.attach "b.md" ⟨7⟩).2.files.map SourceFile.detach =
      smallSite.files.map SourceFile.detach := smallSite.map_detach_attach "b.md" ⟨7⟩
  exact ⟨hpages, by decide +kernel, (build_forgets hpages (some smallSpec) Page.ofFile).2.1 _⟩

end Nav
end DocSite
