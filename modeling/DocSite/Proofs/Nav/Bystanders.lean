import DocSite.Proofs.Nav.Independence
import DocSite.Proofs.Nav.Inference
import DocSite.Proofs.Theme.Additions

/-!
# A build that looks at documents only

Where the arrangement of a site is left to its directories, every leaf is the name of a
document, and a leaf that has the extension of a document asks for a name that has it
(`isMarkdown_targetUri`).  So no file is found that is none, and none is given a page for
being an orphan either.  Two catalogs with the same documents, in the same order, are built
into the same navigation with the same reports (`map_build_of_documentation`), whatever
other files stand between them.

What themes add to a catalog is no document, so themes do not show in such a navigation.
-/

namespace DocSite
namespace Nav

open Drafting

/-! ## What a document is asked for by -/

/-- A leaf with the extension of a document asks for a name that has it too. -/
theorem isMarkdown_targetUri {target : String} (h : isMarkdown target) :
    isMarkdown (targetUri target) := by
  obtain ⟨front, file, hpieces⟩ := (List.eq_nil_or_concat' _).resolve_left (pieces_ne_nil target)
  have hfile : isMarkdown file := by
    rwa [← joined_pieces target, hpieces, isMarkdown_joined] at h
  have hfree : SlashFree file := by
    have hmem : file ∈ pieces target := by simp [hpieces]
    exact slashFree_of_mem_pieces hmem
  have hlegal : IsLegalName file := by
    refine ⟨?_, ?_, ?_, hfree⟩ <;> rintro rfl <;> exact absurd hfile (by decide)
  have hstack : (Path.mk target).stack =
      .name file :: front.foldl pushPiece (Path.mk target).start := by
    rw [Path.stack_eq, hpieces, List.foldl_append, List.foldl_cons, List.foldl_nil,
      pushPiece_of_isLegalName hlegal]
  have hroot : (Path.mk target).stack.reverse ≠ [.root] := by
    intro heq
    have hmem : Component.name file ∈ (Path.mk target).stack.reverse := by simp [hstack]
    rw [heq] at hmem
    simp at hmem
  rw [targetUri, Path.portable, Path.filter_components_normalize, Path.ofComponents, if_neg hroot,
    hstack, List.reverse_cons, List.map_append]
  exact (isMarkdown_joined _ file).trans hfile

/-! ## Reading -/

theorem fst_attach_of_isMarkdown (c : Catalog) {srcUri : String} (h : isMarkdown srcUri)
    (id : PageId) :
    (c.attach srcUri id).1 = c.documentation.find? fun f => f.srcUri = srcUri := by
  rw [Catalog.fst_attach, Catalog.documentation, List.find?_filter]
  congr 1
  funext f
  by_cases hf : f.srcUri = srcUri
  · simp [hf, SourceFile.isDocumentation, h]
  · simp [hf]

theorem documentation_attach (c : Catalog) (srcUri : String) (id : PageId) :
    (c.attach srcUri id).2.documentation =
      c.documentation.map fun f => if f.srcUri = srcUri then f.attach id else f := by
  have hkind : ∀ f : SourceFile, (if f.srcUri = srcUri then f.attach id else f).isDocumentation =
      f.isDocumentation := by
    intro f
    by_cases hf : f.srcUri = srcUri
    · rw [if_pos hf, SourceFile.isDocumentation, SourceFile.srcUri_attach,
        SourceFile.isDocumentation]
    · rw [if_neg hf]
  rw [Catalog.documentation, Catalog.files_attach, List.filter_map, Catalog.documentation]
  simp only [Function.comp_def, hkind]

/-- A document is found among the documents, and attached there. -/
theorem attach_of_documentation {c d : Catalog} (h : c.documentation = d.documentation)
    {srcUri : String} (hname : isMarkdown srcUri) (id : PageId) :
    (c.attach srcUri id).1 = (d.attach srcUri id).1 ∧
      (c.attach srcUri id).2.documentation = (d.attach srcUri id).2.documentation := by
  rw [fst_attach_of_isMarkdown c hname, fst_attach_of_isMarkdown d hname, documentation_attach,
    documentation_attach, h]
  exact ⟨rfl, rfl⟩

namespace Drafting

mutual
theorem looksAt_place (factory : PageFactory) : ∀ e : Entry,
    (∀ target ∈ e.targets, isMarkdown target) → LooksAt Catalog.documentation (place factory e)
  | .leaf title target, h => by
    rw [place]
    exact looksAt_leaf factory title fun c d hsame id => attach_of_documentation hsame
      (isMarkdown_targetUri (h target (by simp [Entry.targets]))) id
  | .group title entries, h => by
    rw [place]
    exact (looksAt_placeAll factory entries h).bind fun children =>
      looksAt_addSection title children

/-- **Making parts looks at documents only**, if every leaf is the name of a document. -/
theorem looksAt_placeAll (factory : PageFactory) : ∀ entries : List Entry,
    (∀ target ∈ Entry.targetsAll entries, isMarkdown target) →
      LooksAt Catalog.documentation (placeAll factory entries)
  | [], _ => by
    rw [placeAll]
    exact looksAt_pure []
  | e :: rest, h => by
    have hfirst := looksAt_place factory e fun target htarget =>
      h target (List.mem_append_left _ htarget)
    have hrest := looksAt_placeAll factory rest fun target htarget =>
      h target (List.mem_append_right _ htarget)
    rw [placeAll]
    exact hfirst.bind fun item => hrest.bind fun items => looksAt_pure (item :: items)
end

end Drafting

/-! ## Orphans -/

/-- What is no document is passed by. -/
theorem visitFiles_filter_isDocumentation (factory : PageFactory) (files : List SourceFile)
    (made : Navigation × List String) :
    Catalog.visitFiles (Navigation.adoptFile factory) made
        (files.filter SourceFile.isDocumentation) =
      ((Catalog.visitFiles (Navigation.adoptFile factory) made files).1.filter
          SourceFile.isDocumentation,
        (Catalog.visitFiles (Navigation.adoptFile factory) made files).2) := by
  induction files generalizing made with
  | nil => rfl
  | cons f rest ih =>
    have hkind : (Navigation.adoptFile factory made f).1.isDocumentation = f.isDocumentation := by
      rw [SourceFile.isDocumentation, Navigation.srcUri_adoptFile, SourceFile.isDocumentation]
    cases hf : f.isDocumentation with
    | true =>
      rw [List.filter_cons_of_pos hf]
      simp [Catalog.visitFiles, ih, hkind, hf]
    | false =>
      have hpassed : Navigation.adoptFile factory made f = (f, made) := by
        simp [Navigation.adoptFile, hf]
      rw [List.filter_cons_of_neg (by simp [hf]), ih]
      simp [Catalog.visitFiles, hpassed, hf]

/-- Which documents are orphans depends on the documents. -/
theorem map_addOrphans_of_documentation {c d : Catalog} (h : c.documentation = d.documentation)
    (factory : PageFactory) (nav : Navigation) :
    Prod.map id Catalog.documentation <$> nav.addOrphans factory c =
      Prod.map id Catalog.documentation <$> nav.addOrphans factory d := by
  have hadopt : ∀ c : Catalog, Prod.map id Catalog.documentation <$> nav.addOrphans factory c =
      (do
        let (documents, completed, srcUris) :=
          Catalog.visitFiles (Navigation.adoptFile factory) (nav, []) c.documentation
        unless srcUris.isEmpty do Journal.report (.orphanPages srcUris)
        return (completed, documents)) := by
    intro c
    rw [Navigation.addOrphans, Catalog.visit, Catalog.documentation,
      visitFiles_filter_isDocumentation]
    dsimp only
    split <;> rfl
  rw [hadopt, hadopt, h]

/-! ## Building -/

theorem documentation_detachAll (c : Catalog) :
    c.detachAll.documentation = c.documentation.map SourceFile.detach := by
  rw [Catalog.documentation, Catalog.files_detachAll, List.filter_map, Catalog.documentation]
  rfl

/-- What directories suggest names documents only. -/
theorem isMarkdown_of_mem_infer {c : Catalog} {target : String}
    (h : target ∈ Entry.targetsAll (infer (c.documentation.map SourceFile.srcUri)).entries) :
    isMarkdown target := by
  rw [Spec.targetsAll_entries, (targets_infer_perm _).mem_iff] at h
  obtain ⟨f, hf, rfl⟩ := List.mem_map.1 h
  exact (List.mem_filter.1 hf).2

/-- What directories suggest is read from the documents. -/
theorem readingOf_of_documentation {c d : Catalog}
    (h : c.detachAll.documentation = d.detachAll.documentation) (factory : PageFactory) :
    (readingOf none factory c).events = (readingOf none factory d).events ∧
      ∃ items made made', (readingOf none factory c).value = (.ok items, made) ∧
        (readingOf none factory d).value = (.ok items, made') ∧
        made.through Catalog.documentation = made'.through Catalog.documentation := by
  have hsight : (Draft.start c).through Catalog.documentation =
      (Draft.start d).through Catalog.documentation :=
    Draft.through_eq_iff.2 ⟨h, rfl, rfl, rfl⟩
  have harrange : ∀ c : Catalog, arrange [] (effectiveSpec none c.detachAll) =
      .ok (infer (c.detachAll.documentation.map SourceFile.srcUri)).entries :=
    fun c => arrange_infer _
  obtain ⟨hevents, hread⟩ := readingOf_of_arrange factory (harrange c)
  obtain ⟨hevents', hread'⟩ := readingOf_of_arrange factory (harrange d)
  rw [← h] at hevents' hread'
  have hplaced := looksAt_placeAll factory
    (infer (c.detachAll.documentation.map SourceFile.srcUri)).entries
    (fun _ => isMarkdown_of_mem_infer) _ _ hsight
  have hreports := congrArg Journal.events hplaced
  rw [Journal.events_map, Journal.events_map] at hreports
  obtain ⟨hitems, hmade⟩ := Prod.mk.inj (congrArg Journal.value hplaced)
  refine ⟨hevents.trans (hreports.trans hevents'.symm), _, _, _, hread, ?_, hmade⟩
  rw [hread']
  exact Prod.ext (congrArg Except.ok hitems.symm) rfl

/-- **A site that is arranged by its directories is built from its documents.**  Two
catalogs with the same documents, apart from their pages, are built alike, and the same
documents have the same pages afterwards; the build is not refused. -/
theorem map_build_of_documentation {c d : Catalog}
    (h : c.documentation.map SourceFile.detach = d.documentation.map SourceFile.detach)
    (factory : PageFactory) :
    Prod.map id Catalog.documentation <$> build none factory c =
        Prod.map id Catalog.documentation <$> build none factory d ∧
      ∃ nav, (build none factory c).value.1 = .ok nav := by
  rw [← documentation_detachAll, ← documentation_detachAll] at h
  obtain ⟨hevents, items, made, made', hmade, hmade', hsight⟩ :=
    readingOf_of_documentation h factory
  have hdocuments := (Draft.through_eq_iff.1 hsight).1
  have hfinish := map_finish_congr hsight factory
    (map_addOrphans_of_documentation hdocuments factory) items
    (sound_of_value_convert hmade) (sound_of_value_convert hmade')
  refine ⟨map_build_of_made hmade hmade' hevents hfinish, ?_⟩
  rw [build_of_made hmade]
  exact ⟨_, rfl⟩

/-! ## Themes -/

/-- Themes leave the documents of a catalog as they are. -/
theorem documentation_of_addThemeFiles {fs : FileSystem} {search : ThemeSearch} {c : Catalog}
    {candidates : List String} {journal : Journal (Nat × Catalog)}
    (h : c.addThemeFiles fs search candidates = .ok journal) :
    journal.value.2.documentation = c.documentation := by
  obtain ⟨filter, hfilter, added, hfiles, hbrought⟩ := Catalog.exists_added_of_addThemeFiles h
  have hnone : added.filter SourceFile.isDocumentation = [] := by
    rw [List.filter_eq_nil_iff]
    intro f hf
    obtain ⟨candidate, -, dir, hbrings⟩ := hbrought f hf
    simp [hbrings.isDocumentation_eq_false hfilter]
  rw [Catalog.documentation, hfiles, List.filter_append, hnone, List.append_nil,
    Catalog.documentation]

/-- The same when the themes are refused. -/
theorem documentation_perform_addThemeFiles (c : Catalog) (fs : FileSystem)
    (search : ThemeSearch) (candidates : List String) :
    (Desk.perform c (.addThemeFiles fs search candidates)).value.2.documentation =
      c.documentation := by
  rw [Desk.perform]
  cases hadding : c.addThemeFiles fs search candidates with
  | error refusal => rfl
  | ok journal => exact documentation_of_addThemeFiles hadding

/-- **Themes do not show in a navigation that follows the directories.**  Whatever themes are
asked to add to a catalog, its documents stay as they are and in their order; the
directories suggest the same arrangement; and the build comes to the same navigation, with
the same reports and the same pages for the documents. -/
theorem build_beside_themes (c : Catalog) (fs : FileSystem) (search : ThemeSearch)
    (candidates : List String) :
    let larger := (Desk.perform c (.addThemeFiles fs search candidates)).value.2
    larger.documentation = c.documentation ∧
      effectiveSpec none larger = effectiveSpec none c ∧
      ∀ factory : PageFactory, ∃ nav,
        (build none factory larger).value.1 = .ok nav ∧ (build none factory c).value.1 = .ok nav ∧
        (build none factory larger).events = (build none factory c).events ∧
        (build none factory larger).value.2.documentation =
          (build none factory c).value.2.documentation := by
  intro larger
  have hdocuments : larger.documentation = c.documentation :=
    documentation_perform_addThemeFiles c fs search candidates
  refine ⟨hdocuments, by rw [effectiveSpec, effectiveSpec, hdocuments], fun factory => ?_⟩
  obtain ⟨hsame, nav, hnav⟩ :=
    map_build_of_documentation (congrArg (List.map SourceFile.detach) hdocuments) factory
  have hreports := congrArg Journal.events hsame
  rw [Journal.events_map, Journal.events_map] at hreports
  obtain ⟨hresult, hfilled⟩ := Prod.mk.inj (congrArg Journal.value hsame)
  exact ⟨nav, hnav, hresult.symm.trans hnav, hreports, hfilled⟩

end Nav
end DocSite
