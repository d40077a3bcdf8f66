import DocSite.Proofs.Catalog.Lookup
import DocSite.Nav.Reading

/-!
# What drafting keeps

Making the parts of an arrangement is a row of three steps: a link is added, a
page is added and attached, a section is put around what is complete.  A
property of drafts that each of the three keeps is kept by the whole
(`Keeps.placed`, `Keeps.placedAll`), whatever the arrangement.

A reading takes the same three steps, but it may also stop at a refusal, with all that
was made until then.  What holds of the steps and of one reading after another holds of
the reading of every specification, accepted or refused (`Reading.Closed.convert`), and
so the same properties of drafts are kept (`Keeps.convert`).

Two such properties are shown here.  A draft only grows, each table at its end
(`grows_placedAll`), so a number keeps its meaning.  And no part of a draft has
a place yet, and every attachment is a page of the draft
(`unplaced_placedAll`).
-/

namespace DocSite
namespace Nav
namespace Drafting

/-- A property of drafts that the three steps of drafting keep. -/
structure Keeps (factory : PageFactory) (P : Draft → Prop) : Prop where
  link : ∀ (draft : Draft) (title : Option String) (target : String) (catalog : Catalog),
    draft.catalog.attach (targetUri target) ⟨draft.pages.length⟩ = (none, catalog) → P draft →
    P { draft with catalog, links := draft.links ++ [⟨title, target, none⟩] }
  page : ∀ (draft : Draft) (title : Option String) (target : String) (f : SourceFile)
    (catalog : Catalog),
    draft.catalog.attach (targetUri target) ⟨draft.pages.length⟩ = (some f, catalog) → P draft →
    P { draft with catalog, pages := draft.pages ++ [factory title f] }
  group : ∀ (draft : Draft) (title : String) (children : List Item), P draft →
    P { draft with sections := draft.sections ++ [⟨title, children, none, false⟩] }

variable {factory : PageFactory} {P : Draft → Prop}

mutual
theorem Keeps.placed (h : Keeps factory P) : ∀ (e : Entry) {draft : Draft}, P draft →
    P (placed factory e draft).2
  | .leaf title target, draft, hdraft => by
    rw [placed_leaf]
    split
    · exact h.link draft title target _ ‹_› hdraft
    · exact h.page draft title target _ _ ‹_› hdraft
  | .group title entries, draft, hdraft => by
    rw [placed_group]
    exact h.group _ title _ (h.placedAll entries hdraft)

theorem Keeps.placedAll (h : Keeps factory P) : ∀ (entries : List Entry) {draft : Draft},
    P draft → P (placedAll factory entries draft).2
  | [], draft, hdraft => by
    rw [placedAll_nil]
    exact hdraft
  | e :: rest, draft, hdraft => by
    rw [placedAll_cons]
    exact h.placedAll rest (h.placed e hdraft)
end

end Drafting

/-! ## Readings, step by step -/

namespace Reading

open Drafting

/-- A property of readings that holds of every single step, and of one reading after
another when it holds of both. -/
structure Closed (factory : PageFactory) (P : (α : Type) → Reading α → Prop) : Prop where
  pure : ∀ {α : Type} (a : α), P α (pure a)
  throw : ∀ {α : Type} (refusal : SpecError), P α (throw refusal)
  bind : ∀ {α β : Type} {reading : Reading α} {next : α → Reading β}, P α reading →
    (∀ a, P β (next a)) → P β (reading >>= next)
  leaf : ∀ (title : Option String) (target : String), P Item (leaf factory title target)
  addSection : ∀ (title : String) (children : List Item), P Item (addSection title children)

variable {factory : PageFactory} {P : (α : Type) → Reading α → Prop}

theorem Closed.section (h : Closed factory P) {reading : Reading (List Item)}
    (hreading : P _ reading) (title : String) : P Item (do Drafting.addSection title (← reading)) :=
  h.bind hreading fun children => h.addSection title children

theorem Closed.cons (h : Closed factory P) {first : Reading Item} {rest : Reading (List Item)}
    (hfirst : P _ first) (hrest : P _ rest) :
    P (List Item) (do let item ← first; return item :: (← rest)) :=
  h.bind hfirst fun _ => h.bind hrest fun _ => h.pure _

mutual
/-- **What holds of the steps holds of the reading of every specification.** -/
theorem Closed.convert (h : Closed factory P) (location : List Step) : ∀ spec : Spec,
    P _ (convert factory location spec)
  | .leaf target => by
    rw [Reading.convert]
    exact h.bind (h.leaf none target) fun _ => h.pure _
  | .mapping entries => h.convertEntries location entries
  | .list items => h.convertItems location 0 items

theorem Closed.convertEntries (h : Closed factory P) (location : List Step) :
    ∀ entries : List (String × Spec), P _ (convertEntries factory location entries)
  | [] => by
    rw [Reading.convertEntries]
    exact h.pure _
  | (title, value) :: rest => by
    rw [Reading.convertEntries]
    exact h.cons (h.convertEntry location title value) (h.convertEntries location rest)

theorem Closed.convertEntry (h : Closed factory P) (location : List Step) (title : String) :
    ∀ value : Spec, P _ (convertEntry factory location title value)
  | .leaf target => by
    rw [Reading.convertEntry]
    exact h.leaf (some title) target
  | .mapping entries => by
    rw [Reading.convertEntry]
    exact h.section (h.convertEntries _ entries) title
  | .list items => by
    rw [Reading.convertEntry]
    exact h.section (h.convertItems _ 0 items) title

theorem Closed.convertItems (h : Closed factory P) (location : List Step) (n : Nat) :
    ∀ items : List Spec, P _ (convertItems factory location n items)
  | [] => by
    rw [Reading.convertItems]
    exact h.pure _
  | .leaf target :: rest => by
    rw [Reading.convertItems]
    exact h.cons (h.leaf none target) (h.convertItems location (n + 1) rest)
  | .mapping [(title, value)] :: rest => by
    rw [Reading.convertItems]
    exact h.cons (h.convertEntry _ title value) (h.convertItems location (n + 1) rest)
  | .mapping [] :: rest => by
    rw [Reading.convertItems]
    · exact h.throw _
    · simp
  | .mapping (_ :: _ :: _) :: rest => by
    rw [Reading.convertItems]
    · exact h.throw _
    · simp
  | .list _ :: rest => by
    rw [Reading.convertItems]
    exact h.throw _
end

end Reading

namespace Drafting

variable {factory : PageFactory} {P : Draft → Prop}

/-- What the steps of drafting keep is kept by every reading, where it is refused as
well. -/
theorem Keeps.convert (h : Keeps factory P) (location : List Step) (spec : Spec) {draft : Draft}
    (hdraft : P draft) : P ((Reading.convert factory location spec).run.run draft).value.2 := by
  have hclosed : Reading.Closed factory fun α (reading : Reading α) =>
      ∀ draft, P draft → P (reading.run.run draft).value.2 := {
    pure := fun _ _ hdraft => hdraft
    throw := fun _ _ hdraft => hdraft
    bind := by
      intro α β reading next hreading hnext draft hdraft
      have hmade := hreading draft hdraft
      rw [ExceptT.run_bind, StateT.run_bind, Journal.value_bind]
      rcases hread : (reading.run.run draft).value with ⟨refusal | a, made⟩ <;> rw [hread] at hmade
      · exact hmade
      · exact hnext a made hmade
    leaf := by
      intro title target draft hdraft
      have hplaced := h.placed (.leaf title target) hdraft
      rw [Drafting.placed, place] at hplaced
      simpa using hplaced
    addSection := fun title children draft hdraft => h.group draft title children hdraft }
  exact hclosed.convert location spec draft hdraft

/-! ## The reports of a leaf -/

/-- A leaf reports only that its file has a page already. -/
theorem run_leaf (factory : PageFactory) (title : Option String) (target : String)
    (draft : Draft) :
    (leaf factory title target).run draft =
      match draft.catalog.attach (targetUri target) ⟨draft.pages.length⟩ with
      | (none, catalog) => ⟨[], .ofLink ⟨draft.links.length⟩,
          { draft with catalog, links := draft.links ++ [⟨title, target, none⟩] }⟩
      | (some f, catalog) => ⟨if f.page.isNone then [] else [.repeatedPage f.srcUri],
          .ofPage ⟨draft.pages.length⟩,
          { draft with catalog, pages := draft.pages ++ [factory title f] }⟩ := by
  rw [leaf]
  rcases hfound : draft.catalog.attach (targetUri target) ⟨draft.pages.length⟩ with
    ⟨_ | f, catalog⟩
  · ext1 <;> simp [hfound]
  · cases hpage : f.page <;> ext1 <;> simp [hfound, hpage, report, Journal.report]

/-! ## Growing -/

/-- A draft has grown out of another: every table starts as it did, and the
catalog has the same files but for their pages. -/
structure Grows (draft made : Draft) : Prop where
  pages : draft.pages <+: made.pages
  sections : draft.sections <+: made.sections
  links : draft.links <+: made.links
  files : made.catalog.files.map SourceFile.detach = draft.catalog.files.map SourceFile.detach

theorem Grows.refl (draft : Draft) : Grows draft draft :=
  ⟨List.prefix_rfl, List.prefix_rfl, List.prefix_rfl, rfl⟩

theorem Grows.srcUris {draft made : Draft} (h : Grows draft made) :
    made.catalog.srcUris = draft.catalog.srcUris :=
  Catalog.srcUris_eq_of_map_detach_eq h.files

theorem keeps_grows (factory : PageFactory) (start : Draft) : Keeps factory (Grows start) where
  link draft title target catalog hattach h := by
    have hfiles := draft.catalog.map_detach_attach (targetUri target) ⟨draft.pages.length⟩
    rw [hattach] at hfiles
    exact ⟨h.pages, h.sections, h.links.trans (List.prefix_append _ _), hfiles.trans h.files⟩
  page draft title target f catalog hattach h := by
    have hfiles := draft.catalog.map_detach_attach (targetUri target) ⟨draft.pages.length⟩
    rw [hattach] at hfiles
    exact ⟨h.pages.trans (List.prefix_append _ _), h.sections, h.links, hfiles.trans h.files⟩
  group draft title children h :=
    ⟨h.pages, h.sections.trans (List.prefix_append _ _), h.links, h.files⟩

theorem grows_placed (factory : PageFactory) (e : Entry) (draft : Draft) :
    Grows draft (placed factory e draft).2 :=
  (keeps_grows factory draft).placed e (Grows.refl draft)

theorem grows_placedAll (factory : PageFactory) (entries : List Entry) (draft : Draft) :
    Grows draft (placedAll factory entries draft).2 :=
  (keeps_grows factory draft).placedAll entries (Grows.refl draft)

/-! ## Nothing has a place yet -/

/-- A way of making pages that makes new ones: each is the plain page of some
file under some title. -/
def MakesNewPages (factory : PageFactory) : Prop :=
  ∀ title f, ∃ given g, factory title f = Page.ofFile given g

theorem MakesNewPages.parent_eq_none (h : MakesNewPages factory) (title : Option String)
    (f : SourceFile) : (factory title f).parent = none := by
  obtain ⟨given, g, hpage⟩ := h title f
  rw [hpage, Page.ofFile]

/-- No part of a draft stands in a section yet, and what is attached to a file is
a page of the draft. -/
structure Unplaced (draft : Draft) : Prop where
  pages : ∀ p ∈ draft.pages, p.parent = none
  sections : ∀ s ∈ draft.sections, s.parent = none
  links : ∀ l ∈ draft.links, l.parent = none
  attached : ∀ f ∈ draft.catalog.files, ∀ id ∈ f.page, id.index < draft.pages.length

theorem mem_page_of_mem_files_attach {c : Catalog} {srcUri : String} {id : PageId} {f : SourceFile}
    (h : f ∈ (c.attach srcUri id).2.files) {other : PageId} (hother : other ∈ f.page) :
    other = id ∧ (c.attach srcUri id).1.isSome ∨ ∃ g ∈ c.files, other ∈ g.page := by
  rw [Catalog.files_attach] at h
  obtain ⟨g, hg, rfl⟩ := List.mem_map.1 h
  split at hother
  · rename_i hname
    cases hpage : g.page with
    | none =>
      have hid : other = id := by simpa [hpage, eq_comm] using hother
      refine Or.inl ⟨hid, ?_⟩
      rw [Catalog.fst_attach, List.find?_isSome]
      exact ⟨g, hg, by simpa using hname⟩
    | some old =>
      refine Or.inr ⟨g, hg, ?_⟩
      simpa [hpage] using hother
  · exact Or.inr ⟨g, hg, hother⟩

theorem keeps_unplaced (h : MakesNewPages factory) : Keeps factory Unplaced where
  link draft title target catalog hattach hdraft := by
    refine ⟨hdraft.pages, hdraft.sections, ?_, ?_⟩
    · intro l hl
      rcases List.mem_append.1 hl with hl | hl
      · exact hdraft.links l hl
      · rw [List.mem_singleton.1 hl]
    · intro f hf id hid
      have hmem : f ∈ (draft.catalog.attach (targetUri target) ⟨draft.pages.length⟩).2.files := by
        rw [hattach]
        exact hf
      rcases mem_page_of_mem_files_attach hmem hid with ⟨-, hsome⟩ | ⟨g, hg, hid⟩
      · rw [hattach] at hsome
        exact absurd hsome (by simp)
      · exact hdraft.attached g hg id hid
  page draft title target f catalog hattach hdraft := by
    refine ⟨?_, hdraft.sections, hdraft.links, ?_⟩
    · intro p hp
      rcases List.mem_append.1 hp with hp | hp
      · exact hdraft.pages p hp
      · rw [List.mem_singleton.1 hp]
        exact h.parent_eq_none title f
    · intro g hg id hid
      have hmem : g ∈ (draft.catalog.attach (targetUri target) ⟨draft.pages.length⟩).2.files := by
        rw [hattach]
        exact hg
      rw [List.length_append, List.length_singleton]
      rcases mem_page_of_mem_files_attach hmem hid with ⟨rfl, -⟩ | ⟨old, hold, hid⟩
      · exact Nat.lt_succ_self _
      · exact Nat.lt_succ_of_lt (hdraft.attached old hold id hid)
  group draft title children hdraft := by
    refine ⟨hdraft.pages, ?_, hdraft.links, hdraft.attached⟩
    intro s hs
    rcases List.mem_append.1 hs with hs | hs
    · exact hdraft.sections s hs
    · rw [List.mem_singleton.1 hs]

theorem unplaced_placedAll (h : MakesNewPages factory) (entries : List Entry) {draft : Draft}
    (hdraft : Unplaced draft) : Unplaced (placedAll factory entries draft).2 :=
  (keeps_unplaced h).placedAll entries hdraft

end Drafting
end Nav
end DocSite
