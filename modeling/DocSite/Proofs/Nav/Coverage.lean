import DocSite.Proofs.Discovery.Listing
import DocSite.Proofs.Nav.Covering
import DocSite.Proofs.Nav.Inference
import DocSite.Proofs.Path.Steps

/-!
# A site that says nothing is covered

A site without a specification is built from the one that is inferred from the files that
discovery has found.  It names each documentation file once, by a name that the lookup of a
leaf leaves as it is (`map_targetUri_of_perm`): names that lead to a file hold neither `.`
nor `..`, and no empty piece.  So nothing is reported, whatever the directory is like, and
the navigation covers the documentation (`covers_of_discover`).

Discovery lists what is in a directory without anything else in between
(`exists_of_before_before`).  But a section is found by the title of a directory and not by
its name, and directories that share a title share a section.  Where the titles of
directories that stand beside one another differ, common titles are common directories
(`eq_of_map_titleOfName_eq`), the paths stand together as they have to for the inference to
keep them (`together_of_pairwise_before`), and the pages are read in the order of the files.
-/

namespace DocSite
namespace Nav

/-! ## Names that lead to a file -/

/-- The titles that lead to a file are those of its directories. -/
theorem directoryTitles_joined {names : List String} (h : AreLegal names) (hne : names ≠ []) :
    directoryTitles (joined names) = names.dropLast.map titleOfName := by
  rw [directoryTitles, components_joined h hne, ← List.map_dropLast, List.map_map]
  refine List.map_congr_left fun name _ => ?_
  rw [Function.comp_apply, if_neg (by simp)]
  rfl

/-! ## Titles that differ -/

/-- Of two paths, the directories at which they part have different titles. -/
def PathsDiffer (path other : List String) : Prop :=
  ∀ front a b rest rest', path = front ++ a :: rest → other = front ++ b :: rest' →
    rest ≠ [] → rest' ≠ [] → titleOfName a = titleOfName b → a = b

/-- No two directories that stand beside one another, each on the way to one of the files,
have the same title. -/
def DirectoriesDiffer (files : List SourceFile) : Prop :=
  ∀ f ∈ files, ∀ g ∈ files, PathsDiffer (pieces f.srcUri) (pieces g.srcUri)

/-- It is enough that the directories differ wherever they stand. -/
theorem directoriesDiffer_of_names {files : List SourceFile}
    (h : ∀ f ∈ files, ∀ g ∈ files, ∀ a ∈ (pieces f.srcUri).dropLast,
      ∀ b ∈ (pieces g.srcUri).dropLast, titleOfName a = titleOfName b → a = b) :
    DirectoriesDiffer files := by
  have hdirectory : ∀ (front : List String) (a : String) (rest : List String), rest ≠ [] →
      a ∈ (front ++ a :: rest).dropLast := by
    intro front a rest hrest
    rw [List.dropLast_append_cons, List.dropLast_cons_of_ne_nil hrest]
    exact List.mem_append_right _ (List.mem_cons_self ..)
  intro f hf g hg front a b rest rest' hfirst hsecond hrest hrest'
  exact h f hf g hg a (hfirst ▸ hdirectory front a rest hrest) b
    (hsecond ▸ hdirectory front b rest' hrest')

/-- Common titles are common directories. -/
theorem eq_of_map_titleOfName_eq {path other : List String} (h : PathsDiffer path other) :
    ∀ (front : List String) {dirs dirs' below below' : List String},
      path = front ++ dirs ++ below → other = front ++ dirs' ++ below' → below ≠ [] → below' ≠ [] →
      dirs.map titleOfName = dirs'.map titleOfName → dirs = dirs'
  | _, [], [], _, _, _, _, _, _, _ => rfl
  | _, [], _ :: _, _, _, _, _, _, _, htitles => by simp at htitles
  | _, _ :: _, [], _, _, _, _, _, _, htitles => by simp at htitles
  | front, a :: dirs, b :: dirs', below, below', hpath, hother, hne, hne', htitles => by
    rw [List.map_cons, List.map_cons, List.cons.injEq] at htitles
    have hfirst : a = b := h front a b (dirs ++ below) (dirs' ++ below') (by simpa using hpath)
      (by simpa using hother) (List.append_ne_nil_of_right_ne_nil _ hne)
      (List.append_ne_nil_of_right_ne_nil _ hne') htitles.1
    subst hfirst
    have hrest : dirs = dirs' := eq_of_map_titleOfName_eq h (front ++ [a])
      (by simpa using hpath) (by simpa using hother) hne hne' htitles.2
    rw [hrest]

/-- Titles at the start of those that lead to a file belong to directories on the way. -/
theorem exists_of_isPrefix_titles {path way : List String}
    (h : way <+: path.dropLast.map titleOfName) (hne : path ≠ []) :
    ∃ dirs below, path = dirs ++ below ∧ below ≠ [] ∧ dirs.map titleOfName = way := by
  obtain ⟨rest, hrest⟩ := h
  obtain ⟨dirs, others, hdirs, hway, -⟩ := List.map_eq_append_iff.1 hrest.symm
  refine ⟨dirs, others ++ [path.getLast hne], ?_, by simp, hway⟩
  rw [← List.append_assoc, ← hdirs, List.dropLast_append_getLast]

/-- Directories on the way to a file have their titles at the start. -/
theorem isPrefix_titles (dirs : List String) {below : List String} (hne : below ≠ []) :
    dirs.map titleOfName <+: (dirs ++ below).dropLast.map titleOfName := by
  rw [List.dropLast_append_of_ne_nil hne, List.map_append]
  exact List.prefix_append _ _

/-- Paths in the order of a listing stand together, when their titles differ. -/
theorem together_of_pairwise_before {paths : List (List String)}
    (hlegal : ∀ path ∈ paths, AreLegal path ∧ path ≠ []) (hordered : paths.Pairwise Before)
    (hdiffer : ∀ path ∈ paths, ∀ other ∈ paths, PathsDiffer path other) :
    Together (paths.map joined) := by
  intro earlier last path later hpaths other hother way hway hway'
  obtain ⟨before, behind, rfl, rfl, hbehind⟩ := List.map_eq_append_iff.1 hpaths
  obtain ⟨middle, rest, rfl, rfl, hrest⟩ := List.map_eq_cons_iff.1 hbehind
  obtain ⟨second, after, rfl, rfl, rfl⟩ := List.map_eq_cons_iff.1 hrest
  obtain ⟨first, hfirst, rfl⟩ := List.mem_map.1 hother
  have hmemFirst : first ∈ before ++ middle :: second :: after := List.mem_append_left _ hfirst
  have hmemMiddle : middle ∈ before ++ middle :: second :: after := by simp
  have hmemSecond : second ∈ before ++ middle :: second :: after := by simp
  obtain ⟨hlegalFirst, hneFirst⟩ := hlegal first hmemFirst
  obtain ⟨hlegalMiddle, hneMiddle⟩ := hlegal middle hmemMiddle
  obtain ⟨hlegalSecond, hneSecond⟩ := hlegal second hmemSecond
  rw [directoryTitles_joined hlegalFirst hneFirst] at hway
  rw [directoryTitles_joined hlegalSecond hneSecond] at hway'
  rw [directoryTitles_joined hlegalMiddle hneMiddle]
  -- the first and the second path lead through the same directories with these titles
  obtain ⟨dirs, below, rfl, hbelow, htitles⟩ := exists_of_isPrefix_titles hway hneFirst
  obtain ⟨dirs', below', rfl, hbelow', htitles'⟩ := exists_of_isPrefix_titles hway' hneSecond
  have hsame : dirs = dirs' := eq_of_map_titleOfName_eq
    (hdiffer _ hmemFirst _ hmemSecond) [] rfl rfl hbelow hbelow' (htitles.trans htitles'.symm)
  subst hsame
  -- and so does the path between them
  obtain ⟨-, hafter, hbefore⟩ := List.pairwise_append.1 hordered
  obtain ⟨hnext, -⟩ := List.pairwise_cons.1 hafter
  obtain ⟨between, hbetween, rfl⟩ := exists_of_before_before hbelow hbelow'
    (hbefore _ hfirst middle (List.mem_cons_self ..)) (hnext _ (List.mem_cons_self ..))
  rw [← htitles]
  exact isPrefix_titles dirs hbetween

/-! ## The site of a discovered directory -/

/-- The documentation that discovery finds is named by legal paths in the order of a
listing. -/
theorem exists_paths_of_documentation {fs : FileSystem} {exclude : List String} {docs site : Path}
    {directoryUrls : Bool} {c : Catalog}
    (h : (Catalog.discover fs docs site directoryUrls exclude).outcome = .ok c) :
    ∃ paths : List (List String), c.documentation.map SourceFile.srcUri = paths.map joined ∧
      (∀ path ∈ paths, AreLegal path ∧ path ≠ []) ∧ paths.Pairwise Before := by
  obtain ⟨paths, hlisting, huris, -⟩ := exists_isListing_of_discover h
  refine ⟨paths.filter fun path => isMarkdown (joined path), ?_, fun path hpath => ?_,
    hlisting.ordered.filter _⟩
  · have hkind : isMarkdown ∘ SourceFile.srcUri = SourceFile.isDocumentation := rfl
    rw [Catalog.documentation, ← hkind, ← List.filter_map]
    exact (congrArg (List.filter isMarkdown) huris).trans List.filter_map
  · obtain ⟨dirs, file, rfl, hlisted⟩ := (hlisting.mem_iff path).1 (List.mem_filter.1 hpath).1
    exact ⟨hlisted.areLegal, by simp⟩

/-- Paths differ where the titles of the directories of their files do. -/
theorem DirectoriesDiffer.pathsDiffer {files : List SourceFile} {paths : List (List String)}
    (h : DirectoriesDiffer files) (huris : files.map SourceFile.srcUri = paths.map joined)
    (hlegal : ∀ path ∈ paths, AreLegal path ∧ path ≠ []) :
    ∀ path ∈ paths, ∀ other ∈ paths, PathsDiffer path other := by
  have hfile : ∀ path ∈ paths, ∃ f ∈ files, pieces f.srcUri = path := by
    intro path hpath
    have hmem : joined path ∈ files.map SourceFile.srcUri :=
      huris ▸ List.mem_map_of_mem hpath
    obtain ⟨f, hf, heq⟩ := List.mem_map.1 hmem
    obtain ⟨hslashes, hne⟩ := hlegal path hpath
    exact ⟨f, hf, by rw [heq, pieces_joined hne hslashes.slashFree]⟩
  intro path hpath other hother
  obtain ⟨f, hf, rfl⟩ := hfile path hpath
  obtain ⟨g, hg, rfl⟩ := hfile other hother
  exact h f hf g hg

/-- Paths that were found are looked up under the names that they have. -/
theorem map_targetUri_of_perm {targets : List String} {paths : List (List String)}
    (h : targets.Perm (paths.map joined)) (hlegal : ∀ path ∈ paths, AreLegal path ∧ path ≠ []) :
    targets.map targetUri = targets := by
  have hwritten : ∀ target ∈ targets, targetUri target = id target := by
    intro target htarget
    obtain ⟨path, hpath, rfl⟩ := List.mem_map.1 (h.mem_iff.1 htarget)
    obtain ⟨hnames, hne⟩ := hlegal path hpath
    exact Path.portable_normalize_joined hnames hne
  rw [List.map_congr_left hwritten, List.map_id]

/-- The names of the documentation, in some order, cover it. -/
theorem covering_of_perm {targets : List String} {catalog : Catalog}
    (h : targets.Perm (catalog.documentation.map SourceFile.srcUri))
    (hwritten : targets.map targetUri = targets) : Covering targets catalog where
  distinct := by
    rw [hwritten, h.nodup_iff]
    exact catalog.distinct.sublist (List.filter_sublist.map _)
  found := by
    intro target htarget
    have hlookup : targetUri target ∈ targets := hwritten ▸ List.mem_map_of_mem htarget
    obtain ⟨f, hf, heq⟩ := List.mem_map.1 (h.mem_iff.1 hlookup)
    exact heq ▸ List.mem_map_of_mem (List.mem_of_mem_filter hf)
  documentation := by
    intro f hf
    have hname : f.srcUri ∈ targets := h.mem_iff.2 (List.mem_map_of_mem hf)
    rw [← hwritten] at hname
    exact List.mem_map.1 hname

/-- **A site that says nothing is covered.**  From what discovery has found it is built
without an error and without a report: there are no links and no orphans, and each
documentation file has exactly one page, which is in the forest.  The pages are read in the
order of the documentation, up to directories that share a title. -/
theorem covers_of_discover {fs : FileSystem} {exclude : List String} {docs site : Path}
    {directoryUrls : Bool} {c : Catalog} {factory : PageFactory}
    (hfactory : MakesPagesOfFiles factory)
    (h : (Catalog.discover fs docs site directoryUrls exclude).outcome = .ok c) :
    ∃ nav filled, build none factory c = ⟨[], .ok nav, filled⟩ ∧ nav.Covers c filled ∧
      nav.srcUris.Perm (c.documentation.map SourceFile.srcUri) ∧
      (DirectoriesDiffer c.documentation →
        nav.srcUris = c.documentation.map SourceFile.srcUri) := by
  obtain ⟨paths, huris, hlegal, hordered⟩ := exists_paths_of_documentation h
  have hperm : (effectiveSpec none c).targets.Perm (c.documentation.map SourceFile.srcUri) :=
    targets_infer_perm _
  have hwritten := map_targetUri_of_perm (huris ▸ hperm) hlegal
  have harrange : arrange [] (effectiveSpec none c) = .ok (effectiveSpec none c).entries :=
    arrange_infer _
  obtain ⟨nav, filled, hbuild, hcovers, hsrcUris⟩ :=
    build_of_covering hfactory harrange (covering_of_perm hperm hwritten)
  rw [hwritten] at hsrcUris
  refine ⟨nav, filled, hbuild, hcovers, hsrcUris ▸ hperm, fun hdiffer => ?_⟩
  have htogether := together_of_pairwise_before hlegal hordered (hdiffer.pathsDiffer huris hlegal)
  rw [hsrcUris]
  exact targets_infer (huris ▸ htogether)

theorem covers_linkedTree : ∃ c nav filled,
    (Catalog.discover linkedTree ⟨"/docs"⟩ ⟨"/site"⟩ true [".*"]).outcome = .ok c ∧
      build none Page.ofFile c = ⟨[], .ok nav, filled⟩ ∧ nav.Covers c filled ∧
      nav.srcUris = ["index.md", "guide/setup.md"] := by
  obtain ⟨nav, filled, hbuild, hcovers, -, hordered⟩ :=
    covers_of_discover (fun title f => ⟨title, rfl⟩) outcome_discover_linkedTree
  have hsrcUris := hordered (directoriesDiffer_of_names (by decide +kernel))
  refine ⟨_, nav, filled, outcome_discover_linkedTree, hbuild, hcovers, hsrcUris.trans ?_⟩
  decide +kernel

end Nav
end DocSite
