import Mathlib.Data.List.Infix
import DocSite.Proofs.Discovery.Places

/-!
# Which outputs are in each other's way

Nothing keeps two found files from being published at one place, or one of them from
being published where the other needs a directory.  This module says when it happens
(`startsWith_destPath_iff`).

Two files that are no pages are never in each other's way: they are published under the
names that lead to them, and a directory has nothing below a file.  So a page is always
involved, and there are three ways (`SourceFile.Blocks`).  A page may be published where
another file is; its directory, in directory style, may have the place of a file; and it
may itself have the place of a directory.  The one case that discovery does take care of
is a `README.md` beside an `index.md`, of which only the second is kept
(`not_readme_and_index`).
-/

namespace DocSite

variable {fs : FileSystem} {exclude : List String} {docs site : Path} {directoryUrls : Bool}
  {c : Catalog}

/-! ## Files and the directories they lie in -/

theorem not_hasDirectory_of_hasFile {dir : Path} {name : String} (h : HasFile fs dir name) :
    ¬ HasDirectory fs dir name := by
  rintro ⟨-, place, hplace⟩
  obtain ⟨-, other, entry, hother, hentry⟩ := h
  obtain ⟨-, rfl⟩ := Prod.mk.inj (Except.ok.inj (hother.symm.trans hplace))
  exact hentry rfl

/-- A file that is found is not on the way to another one. -/
theorem IsListed.not_isPrefix {dirs others : List String} {file other : String}
    (h : IsListed fs exclude docs dirs file) (h' : IsListed fs exclude docs others other) :
    ¬ dirs ++ [file] <+: others := by
  rintro ⟨rest, rfl⟩
  have hkept := h'.directories dirs file rest (by simp)
  exact not_hasDirectory_of_hasFile h.file.1 hkept.1

/-- What begins a list is the list or begins it without its last entry. -/
theorem isPrefix_iff_eq_or_dropLast {names others : List String} (h : others ≠ []) :
    names <+: others ↔ names = others ∨ names <+: others.dropLast := by
  conv_lhs => rw [← List.dropLast_concat_getLast h]
  rw [List.prefix_concat_iff, List.dropLast_concat_getLast]

namespace SourceFile

/-! ## The three ways -/

/-- What is published for one file is at the place of what is published for another, or
at that of a directory in which it is. -/
inductive Blocks (g f : SourceFile) : Prop where
  /-- Both are published at one place: `setup.html` beside `setup.md` written flat. -/
  | samePlace (hpage : g.isDocumentation ∨ f.isDocumentation)
      (hplace : g.outputNames = f.outputNames)
  /-- A page needs a directory of its own where there is a file: `LICENSE` beside
  `LICENSE.md` in directory style. -/
  | pageDirectory (hpage : f.isDocumentation) (hstyle : f.directoryUrls) (hname : f.name ≠ "index")
      (hplace : g.outputNames = f.folder ++ [f.name])
  /-- A page is published where there is a directory: `setup.md`, written flat, beside a
  directory `setup.html`. -/
  | directory (hpage : g.isDocumentation) (hplace : g.outputNames <+: f.outputNames.dropLast)

namespace Stands

variable {f g : SourceFile} {dirs others : List String} {file other : String}

/-- **The output of one found file is in the way of that of another in three ways.** -/
theorem outputNames_prefix_iff (hg : g.Stands others other) (hf : f.Stands dirs file)
    (hne : f.srcUri ≠ g.srcUri) (hlistedG : IsListed fs exclude docs others other)
    (hlistedF : IsListed fs exclude docs dirs file) :
    g.outputNames <+: f.outputNames ↔ g.Blocks f := by
  rw [isPrefix_iff_eq_or_dropLast hf.outputNames_ne_nil]
  constructor
  · rintro (hplace | hplace)
    · -- at one place: two files that are no pages would have one name
      refine .samePlace ?_ hplace
      by_contra hpage
      rw [not_or] at hpage
      rw [hg.outputNames_of_not_isDocumentation hpage.1,
        hf.outputNames_of_not_isDocumentation hpage.2] at hplace
      exact hne (by rw [hf.srcUri, hg.srcUri, hplace])
    · by_cases hpage : g.isDocumentation
      · exact .directory hpage hplace
      rw [hg.outputNames_of_not_isDocumentation hpage] at hplace
      -- a file is not on the way to another, so only the directory of a page is left
      obtain hdirs | ⟨hpageF, hstyle, hname, hbegins⟩ := hf.dropLast_outputNames_cases
      · exact absurd (hdirs ▸ hplace) (hlistedG.not_isPrefix hlistedF)
      · rcases List.prefix_concat_iff.1 (hplace.trans hbegins) with heq | hdirs
        · refine .pageDirectory hpageF hstyle hname ?_
          rw [hg.outputNames_of_not_isDocumentation hpage, hf.folder_eq, heq]
        · exact absurd hdirs (hlistedG.not_isPrefix hlistedF)
  · rintro (⟨-, hplace⟩ | ⟨hpage, hstyle, hname, hplace⟩ | ⟨-, hplace⟩)
    · exact .inl hplace
    · rw [hf.name] at hname hplace
      rw [hf.folder_eq] at hplace
      have hlegal : AreLegal (dirs ++ [pageName file]) := hplace ▸ areLegal_outputNames g
      rw [hf.outputNames_of_page hpage hstyle hname, Url.settled_of_areLegal hlegal, hplace,
        List.dropLast_concat]
      exact .inr List.prefix_rfl
    · exact .inr hplace

end Stands
end SourceFile

/-! ## What discovery lets happen -/

/-- A `README.md` is not kept beside an `index.md`. -/
theorem not_readme_and_index
    (h : (Catalog.discover fs docs site directoryUrls exclude).outcome = .ok c)
    {f g : SourceFile} (hf : f ∈ c.files) (hg : g ∈ c.files) {dirs : List String}
    (hreadme : f.Stands dirs "README.md") : ¬ g.Stands dirs "index.md" := by
  intro hindex
  obtain ⟨_, _, hlistedF, hstandsF, -⟩ := exists_isListed_of_discover h hf
  obtain ⟨_, _, hlistedG, hstandsG, -⟩ := exists_isListed_of_discover h hg
  obtain ⟨rfl, rfl⟩ := hreadme.eq_of_stands hstandsF
  obtain ⟨rfl, rfl⟩ := hindex.eq_of_stands hstandsG
  exact hlistedF.file.2.2 ⟨rfl, hlistedG.file.1⟩

/-- **When the output of one found file is at or above that of another.**  Pages that
climb out apart, it is in one of the three ways in which files are in each other's way;
and a `README.md` and an `index.md` of one directory are not both found. -/
theorem startsWith_destPath_iff
    (h : (Catalog.discover fs docs site directoryUrls exclude).outcome = .ok c) :
    (∀ f ∈ c.files, ∀ g ∈ c.files, f.srcUri ≠ g.srcUri → ¬ f.ClimbsOut → ¬ g.ClimbsOut →
      (f.destPath.StartsWith g.destPath ↔ g.Blocks f)) ∧
    ∀ f ∈ c.files, ∀ g ∈ c.files, ∀ dirs, f.Stands dirs "README.md" →
      ¬ g.Stands dirs "index.md" := by
  refine ⟨fun f hf g hg hne hclimbF hclimbG => ?_,
    fun f hf g hg dirs => not_readme_and_index h hf hg⟩
  obtain ⟨_, _, hlistedF, hstandsF, -, hsiteF, -⟩ := exists_isListed_of_discover h hf
  obtain ⟨_, _, hlistedG, hstandsG, -, hsiteG, -⟩ := exists_isListed_of_discover h hg
  have hname : Function.Injective Component.name := fun _ _ => Component.name.inj
  rw [Path.StartsWith, hstandsF.components_destPath hclimbF, hstandsG.components_destPath hclimbG,
    hsiteF, hsiteG, List.prefix_append_right_inj, List.prefix_map_iff_of_injective hname]
  exact hstandsG.outputNames_prefix_iff hstandsF hne hlistedG hlistedF

/-- `LICENSE.md` is written into a directory that has the place of `LICENSE`. -/
theorem exists_discovered_at_file : ∃ c,
    (Catalog.discover crowdedTree ⟨"/docs"⟩ ⟨"/site"⟩ true []).outcome = .ok c ∧
      ∃ f ∈ c.files, ∃ g ∈ c.files, f.destPath = ⟨"/site/LICENSE/index.html"⟩ ∧
        g.destPath = ⟨"/site/LICENSE"⟩ ∧ f.destPath.StartsWith g.destPath := by
  obtain ⟨c, hdiscover, hfiles⟩ := exists_outcome_discover_crowdedTree
  refine ⟨c, hdiscover, .ofPath ⟨"LICENSE.md"⟩ ⟨"/docs"⟩ ⟨"/site"⟩ true, ?_,
    .ofPath ⟨"LICENSE"⟩ ⟨"/docs"⟩ ⟨"/site"⟩ true, ?_, ?_⟩
  · rw [hfiles]
    decide +kernel
  · rw [hfiles]
    decide +kernel
  · decide +kernel

/-- The file `LICENSE` is in the way of the page `LICENSE.md`, and not the other way
round. -/
theorem startsWith_destPath_iff_crowdedTree : ∃ c,
    (Catalog.discover crowdedTree ⟨"/docs"⟩ ⟨"/site"⟩ true []).outcome = .ok c ∧
      ∃ f ∈ c.files, ∃ g ∈ c.files, f.srcUri = "LICENSE.md" ∧ g.srcUri = "LICENSE" ∧
        g.Blocks f ∧ ¬ f.Blocks g := by
  obtain ⟨c, hdiscover, hfiles⟩ := exists_outcome_discover_crowdedTree
  have hblocks := (startsWith_destPath_iff hdiscover).1
  rw [hfiles] at hblocks
  refine ⟨c, hdiscover, .ofPath ⟨"LICENSE.md"⟩ ⟨"/docs"⟩ ⟨"/site"⟩ true, ?_,
    .ofPath ⟨"LICENSE"⟩ ⟨"/docs"⟩ ⟨"/site"⟩ true, ?_, by decide +kernel, by decide +kernel, ?_, ?_⟩
  · rw [hfiles]
    decide +kernel
  · rw [hfiles]
    decide +kernel
  · exact (hblocks _ (by decide +kernel) _ (by decide +kernel) (by decide +kernel)
      (by decide +kernel) (by decide +kernel)).1 (by decide +kernel)
  · exact fun hblocked => absurd ((hblocks _ (by decide +kernel) _ (by decide +kernel)
      (by decide +kernel) (by decide +kernel) (by decide +kernel)).2 hblocked) (by decide +kernel)

end DocSite
