import DocSite.Proofs.Theme.Places

/-!
# Candidates one after the other

A candidate stands under three names: as it was given, with slashes for backslashes, and
under the portable form of that, which is the name of the file that it brings.  The catalog
is asked for the second and then for the third, while it grows.  Asking for the second is
of no use: a catalog knows portable names only, and the portable form of such a name is the
name itself (`Path.portable_portable`).  So a candidate adds what it brings unless the name
of that is known (`Catalog.value_addCandidate_of_brings`).

What all candidates add is then clear without the steps (`ThemeSearch.IsAdded`): of each
name that the catalog did not have, the first file that is brought, in the order in which
they are brought.  That is what the whole row comes to
(`Desk.perform_addThemeFiles`), if every template can be read; and if one cannot,
nothing is added.
-/

namespace DocSite

/-! ## What is brought first -/

namespace ThemeSearch

/-- A file is the first of its name that candidates bring: the one at a position brings it,
and no earlier one brings a file of that name. -/
structure BringsFirst (search : ThemeSearch) (fs : FileSystem) (filter : ThemeFilter)
    (candidates : List String) (n : Nat) (f : SourceFile) : Prop where
  brings : ∃ candidate dir, candidates[n]? = some candidate ∧
    search.Brings fs filter candidate dir f
  first : ∀ m < n, ∀ candidate dir g, candidates[m]? = some candidate →
    search.Brings fs filter candidate dir g → g.srcUri ≠ f.srcUri

/-- Files are what candidates add where some names are known: of each other name that is
brought one file, the first, and these in the order in which they are brought. -/
structure IsAdded (search : ThemeSearch) (fs : FileSystem) (filter : ThemeFilter)
    (candidates known : List String) (added : List SourceFile) : Prop where
  unknown : ∀ f ∈ added, f.srcUri ∉ known
  distinct : (added.map SourceFile.srcUri).Nodup
  ordered : ∃ positions : List Nat, positions.Pairwise (· < ·) ∧
    List.Forall₂ (search.BringsFirst fs filter candidates) positions added
  complete : ∀ candidate ∈ candidates, ∀ dir f, search.Brings fs filter candidate dir f →
    f.srcUri ∈ known ∨ f.srcUri ∈ added.map SourceFile.srcUri

variable {search : ThemeSearch} {fs : FileSystem} {filter : ThemeFilter}
  {candidates known : List String} {candidate : String} {dir : Path} {f : SourceFile}
  {added : List SourceFile}

/-- A candidate brings one file. -/
theorem Brings.unique {other : Path} {g : SourceFile}
    (h : search.Brings fs filter candidate dir f)
    (h' : search.Brings fs filter candidate other g) : f = g := by
  obtain rfl := Option.some.inj (h.found.symm.trans h'.found)
  rw [h.file, h'.file]

/-- What is brought comes from the first theme in which it is a file. -/
theorem Brings.exists_dirs_eq (h : search.Brings fs filter candidate dir f) :
    ∃ before after, search.dirs = before ++ f.root :: after ∧
      fs.isFile (f.root.join f.path) ∧ ∀ other ∈ before, ¬ fs.isFile (other.join f.path) := by
  obtain ⟨hfile, before, after, hdirs, hbefore⟩ := List.find?_eq_some_iff_append.1 h.found
  rw [h.root_eq, h.path_eq]
  exact ⟨before, after, hdirs, hfile, fun other hother => by simpa using hbefore other hother⟩

theorem isAdded_nil (search : ThemeSearch) (fs : FileSystem) (filter : ThemeFilter)
    (known : List String) : search.IsAdded fs filter [] known [] where
  unknown := by simp
  distinct := List.nodup_nil
  ordered := ⟨[], .nil, .nil⟩
  complete := by simp

theorem BringsFirst.lt_length {n : Nat} (h : search.BringsFirst fs filter candidates n f) :
    n < candidates.length := by
  obtain ⟨candidate, dir, hcandidate, -⟩ := h.brings
  exact (List.getElem?_eq_some_iff.1 hcandidate).1

/-- A further candidate takes nothing from what was brought first. -/
theorem BringsFirst.concat {n : Nat} (h : search.BringsFirst fs filter candidates n f)
    (candidate : String) : search.BringsFirst fs filter (candidates ++ [candidate]) n f := by
  obtain ⟨other, dir, hother, hbrings⟩ := h.brings
  refine ⟨⟨other, dir, by rw [List.getElem?_append_left h.lt_length, hother], hbrings⟩, ?_⟩
  intro m hm earlier dir' g hearlier hg
  rw [List.getElem?_append_left (hm.trans h.lt_length)] at hearlier
  exact h.first m hm earlier dir' g hearlier hg

theorem IsAdded.exists_brings (h : search.IsAdded fs filter candidates known added)
    (hf : f ∈ added) : ∃ candidate dir, search.Brings fs filter candidate dir f := by
  obtain ⟨positions, -, hfirst⟩ := h.ordered
  have hall : ∀ g ∈ added, ∃ candidate dir, search.Brings fs filter candidate dir g := by
    refine ((List.forall₂_and_left (R := fun _ _ => True) _ _).1
      (hfirst.flip.imp fun g n hg => ⟨?_, trivial⟩)).1
    obtain ⟨candidate, dir, -, hbrings⟩ := hg.brings
    exact ⟨candidate, dir, hbrings⟩
  exact hall f hf

/-- A candidate that brings nothing of a new name adds nothing. -/
theorem IsAdded.concat_of_known (h : search.IsAdded fs filter candidates known added)
    (hknown : ∀ dir f, search.Brings fs filter candidate dir f →
      f.srcUri ∈ known ∨ f.srcUri ∈ added.map SourceFile.srcUri) :
    search.IsAdded fs filter (candidates ++ [candidate]) known added where
  unknown := h.unknown
  distinct := h.distinct
  ordered := by
    obtain ⟨positions, hordered, hfirst⟩ := h.ordered
    exact ⟨positions, hordered, hfirst.imp fun n f hf => hf.concat candidate⟩
  complete := by
    intro other hother
    rcases List.mem_append.1 hother with hother | hother
    · exact h.complete other hother
    · rwa [List.mem_singleton.1 hother]

/-- A candidate that brings a file of a new name adds it. -/
theorem IsAdded.concat_of_new (h : search.IsAdded fs filter candidates known added)
    (hbrings : search.Brings fs filter candidate dir f) (hknown : f.srcUri ∉ known)
    (hnew : f.srcUri ∉ added.map SourceFile.srcUri) :
    search.IsAdded fs filter (candidates ++ [candidate]) known (added ++ [f]) where
  unknown := by
    intro g hg
    rcases List.mem_append.1 hg with hg | hg
    · exact h.unknown g hg
    · rwa [List.mem_singleton.1 hg]
  distinct := by
    rw [List.map_append, List.map_singleton, ← List.concat_eq_append]
    exact h.distinct.concat hnew
  ordered := by
    obtain ⟨positions, hordered, hfirst⟩ := h.ordered
    have hbefore : ∀ n ∈ positions, n < candidates.length :=
      ((List.forall₂_and_left (R := fun _ _ => True) _ _).1
        (hfirst.imp fun n g hg => ⟨hg.lt_length, trivial⟩)).1
    refine ⟨positions ++ [candidates.length], List.pairwise_append.2 ⟨hordered,
      List.pairwise_singleton _ _, by simpa using hbefore⟩, ?_⟩
    refine List.rel_append (hfirst.imp fun n g hg => hg.concat candidate) (.cons ⟨?_, ?_⟩ .nil)
    · exact ⟨candidate, dir, List.getElem?_concat_length, hbrings⟩
    · -- whatever was brought before has a name that is known or was added
      intro m hm other dir' g hother hg hsame
      rw [List.getElem?_append_left hm] at hother
      rw [← hsame] at hknown hnew
      rcases h.complete other (List.mem_of_getElem? hother) dir' g hg with hmem | hmem
      · exact hknown hmem
      · exact hnew hmem
  complete := by
    intro other hother dir' g hg
    rw [List.map_append, List.mem_append]
    rcases List.mem_append.1 hother with hother | hother
    · exact (h.complete other hother dir' g hg).imp_right .inl
    · rw [List.mem_singleton.1 hother] at hg
      obtain rfl := hbrings.unique hg
      exact .inr (.inr (by simp))

end ThemeSearch

/-! ## One candidate -/

namespace Catalog

variable {search : ThemeSearch} {fs : FileSystem} {filter : ThemeFilter} {candidate : String}
  {dir : Path} {f : SourceFile}

theorem value_addCandidate_of_brings (h : search.Brings fs filter candidate dir f)
    (made : Nat × List SourceFile) :
    (Desk.Listing.addCandidate fs search filter made candidate).value =
      if f.srcUri ∈ made.2.map SourceFile.srcUri then made else (made.1 + 1, made.2 ++ [f]) := by
  have hname : f.srcUri = (Path.mk (ThemeSearch.slashed candidate)).portable := by
    rw [SourceFile.srcUri, h.path_eq]
  have hhas : Desk.Listing.has made.2 f.srcUri = true ↔
      f.srcUri ∈ made.2.map SourceFile.srcUri := by
    simp [Desk.Listing.has]
  rw [Desk.Listing.addCandidate]
  by_cases hknown : Desk.Listing.has made.2 (ThemeSearch.slashed candidate) = true
  · -- the path is the name of a file, so it is portable, and the name of what is brought
    obtain ⟨g, hg, hsame⟩ : ∃ g ∈ made.2, g.srcUri = ThemeSearch.slashed candidate := by
      simpa [Desk.Listing.has] using hknown
    have hmem : f.srcUri ∈ made.2.map SourceFile.srcUri := by
      rw [hname, ← hsame, SourceFile.srcUri, Path.portable_portable]
      exact List.mem_map_of_mem hg
    rw [if_pos hmem]
    simp [hknown]
  · rw [if_pos (by simp [h.accepts, hknown]), h.found]
    simp only [← h.file, Desk.Listing.append, ← hhas]
    split <;> rfl

theorem value_addCandidate_of_not_brings (h : ∀ dir f, ¬ search.Brings fs filter candidate dir f)
    (made : Nat × List SourceFile) :
    (Desk.Listing.addCandidate fs search filter made candidate).value = made := by
  rw [Desk.Listing.addCandidate]
  split
  · rename_i hpublished
    rw [Bool.and_eq_true] at hpublished
    split
    · rfl
    · rename_i dir hdir
      exact absurd ⟨hpublished.1, hdir, rfl⟩ (h dir _)
  · rfl

/-! ## All candidates -/

/-- **What candidates add**, and how many files that are. -/
theorem exists_isAdded (search : ThemeSearch) (fs : FileSystem) (filter : ThemeFilter)
    (candidates : List String) (files : List SourceFile) : ∃ added,
      (candidates.foldlM (Desk.Listing.addCandidate fs search filter) (0, files)).value =
        (added.length, files ++ added) ∧
      search.IsAdded fs filter candidates (files.map SourceFile.srcUri) added := by
  induction candidates using List.reverseRecOn with
  | nil => exact ⟨[], by simp, search.isAdded_nil fs filter _⟩
  | append_singleton candidates candidate ih =>
    obtain ⟨added, hvalue, hadded⟩ := ih
    have hstep : ((candidates ++ [candidate]).foldlM
        (Desk.Listing.addCandidate fs search filter) (0, files)).value =
          (Desk.Listing.addCandidate fs search filter (added.length, files ++ added)
            candidate).value := by
      rw [List.foldlM_append, Journal.value_bind, hvalue, List.foldlM_cons, Journal.value_bind,
        List.foldlM_nil, Journal.value_pure]
    by_cases hbrings : ∃ dir f, search.Brings fs filter candidate dir f
    · obtain ⟨dir, f, hbrings⟩ := hbrings
      have hmem : f.srcUri ∈ (files ++ added).map SourceFile.srcUri ↔
          f.srcUri ∈ files.map SourceFile.srcUri ∨ f.srcUri ∈ added.map SourceFile.srcUri := by
        rw [List.map_append, List.mem_append]
      rw [hstep, value_addCandidate_of_brings hbrings]
      by_cases hknown : f.srcUri ∈ (files ++ added).map SourceFile.srcUri
      · refine ⟨added, if_pos hknown, hadded.concat_of_known fun other g hg => ?_⟩
        rwa [← hbrings.unique hg, ← hmem]
      · obtain ⟨hold, hnew⟩ := not_or.1 (mt hmem.2 hknown)
        refine ⟨added ++ [f], ?_, hadded.concat_of_new hbrings hold hnew⟩
        rw [if_neg hknown, List.length_append, List.length_singleton, List.append_assoc]
    · simp only [not_exists] at hbrings
      rw [hstep, value_addCandidate_of_not_brings hbrings]
      exact ⟨added, rfl, hadded.concat_of_known fun dir f hf => absurd hf (hbrings dir f)⟩

end Catalog

/-! ## Templates that can be read -/

namespace ThemeFilter

variable {templates : List String}

theorem readPattern_eq_error_iff {name text : String} {refusal : FileError} :
    readPattern name text = .error refusal ↔
      ∃ cause, Glob.ofText text = .error cause ∧ refusal = .pattern name cause := by
  rw [readPattern]
  cases Glob.ofText text <;> simp [eq_comm]

/-- The patterns of every filter can be read. -/
theorem exists_ofText_themePatterns {pattern : String} (h : pattern ∈ themePatterns) :
    ∃ glob, Glob.ofText pattern = .ok glob := by
  have hall : ∀ pattern ∈ themePatterns, (Glob.ofText pattern).isOk = true := by
    decide +kernel
  cases hread : Glob.ofText pattern with
  | ok glob => exact ⟨glob, rfl⟩
  | error cause =>
    have hok := hall pattern h
    rw [hread] at hok
    cases hok

/-- A filter can be made when every template can be read. -/
theorem exists_ofTemplates_eq_ok
    (h : ∀ template ∈ templates, ∃ glob, Glob.ofText template = .ok glob) :
    ∃ filter, ofTemplates templates = .ok filter := by
  have hread : ∀ text ∈ themePatterns ++ templates, ∃ glob, readPattern text text = .ok glob := by
    simp only [readPattern_eq_ok_iff]
    intro text htext
    exact (List.mem_append.1 htext).elim exists_ofText_themePatterns (h text)
  obtain ⟨refused, hrefused⟩ := exists_mapM_eq_ok_iff.2 hread
  exact ⟨⟨refused⟩, by rw [ofTemplates, hrefused]; rfl⟩

/-- If a template cannot be read, the filter is refused by the name of one that cannot. -/
theorem exists_ofTemplates_eq_error {template : String} (h : template ∈ templates)
    {cause : GlobError} (hread : Glob.ofText template = .error cause) :
    ∃ other ∈ templates, ∃ cause, Glob.ofText other = .error cause ∧
      ofTemplates templates = .error (.pattern other cause) := by
  obtain ⟨other, hother, refusal, hrefused, hrow⟩ :=
    exists_mapM_eq_error (f := fun text => readPattern text text)
      (List.mem_append_right themePatterns h) (readPattern_eq_error_iff.2 ⟨cause, hread, rfl⟩)
  obtain ⟨cause, hcause, rfl⟩ := readPattern_eq_error_iff.1 hrefused
  have htemplate : other ∈ templates := by
    refine (List.mem_append.1 hother).resolve_left fun hpattern => ?_
    obtain ⟨glob, hglob⟩ := exists_ofText_themePatterns hpattern
    rw [hcause] at hglob
    cases hglob
  exact ⟨other, htemplate, cause, hcause, by rw [ofTemplates, hrow]; rfl⟩

end ThemeFilter

namespace Desk

/-- **What comes of adding the files of themes.**  If a template cannot be read, that is the
answer, and the catalog stays as it is.  If all can be read, the files of the catalog stay
and at their end stand, of each name that the catalog did not have, the first file that a
candidate brings, in the order in which they are brought, each from the first theme that
has it; and the answer is their number. -/
theorem perform_addThemeFiles (c : Catalog) (fs : FileSystem) (search : ThemeSearch)
    (candidates : List String) :
    ((∃ template ∈ search.templates, ∃ cause, Glob.ofText template = .error cause) →
      ∃ template ∈ search.templates, ∃ cause, Glob.ofText template = .error cause ∧
        Desk.perform c (.addThemeFiles fs search candidates) =
          pure (.count (.error (.pattern template cause)), c)) ∧
    ((∀ template ∈ search.templates, ∃ glob, Glob.ofText template = .ok glob) →
      ∃ filter, ThemeFilter.ofTemplates search.templates = .ok filter ∧ ∃ added larger,
        (Desk.perform c (.addThemeFiles fs search candidates)).value =
          (.count (.ok added.length), larger) ∧
        larger.files = c.files ++ added ∧
        search.IsAdded fs filter candidates c.srcUris added ∧
        ∀ f ∈ added, ∃ before after, search.dirs = before ++ f.root :: after ∧
          fs.isFile (f.root.join f.path) ∧
            ∀ dir ∈ before, ¬ fs.isFile (dir.join f.path)) := by
  constructor
  · rintro ⟨template, htemplate, cause, hcause⟩
    obtain ⟨other, hother, cause, hcause, hrefused⟩ :=
      ThemeFilter.exists_ofTemplates_eq_error htemplate hcause
    refine ⟨other, hother, cause, hcause, ?_⟩
    rw [Desk.perform, addThemeFiles_eq, hrefused]
    rfl
  · intro hread
    obtain ⟨filter, hfilter⟩ := ThemeFilter.exists_ofTemplates_eq_ok hread
    obtain ⟨added, hvalue, hadded⟩ :=
      Catalog.exists_isAdded search fs filter candidates c.files
    have hlisting := congrArg Journal.value
      (perform_listing c (.addThemeFiles fs search candidates))
    rw [Journal.value_map, Listing.perform, hfilter] at hlisting
    dsimp only at hlisting
    rw [Journal.value_bind, hvalue, Journal.value_pure] at hlisting
    obtain ⟨hcount, hfiles⟩ := Prod.mk.inj hlisting
    refine ⟨filter, hfilter, added, _, Prod.ext hcount rfl, hfiles, hadded, fun f hf => ?_⟩
    obtain ⟨candidate, dir, hbrings⟩ := hadded.exists_brings hf
    exact hbrings.exists_dirs_eq

/-- A catalog with a style sheet among the documents. -/
def styledCatalog : Catalog :=
  (Catalog.ofFiles [.ofPath ⟨"style.css"⟩ ⟨"docs"⟩ ⟨"site"⟩ true]).value

/-- A template that cannot be read is refused.  Without it, a file that two candidates spell
is added once, and the style sheet of the theme does not stand in for that of the
documents. -/
theorem perform_addThemeFiles_styledCatalog :
    (∃ cause, Desk.perform styledCatalog (.addThemeFiles Catalog.plantedTree
        { Catalog.plantedSearch with templates := ["[broken"] } ["style.css"]) =
      pure (.count (.error (.pattern "[broken" cause)), styledCatalog)) ∧
    ∃ added larger, (Desk.perform styledCatalog (.addThemeFiles Catalog.plantedTree
        Catalog.plantedSearch ["\\etc\\hosts", "style.css", "/etc//hosts"])).value =
        (.count (.ok added.length), larger) ∧
      larger.files = styledCatalog.files ++ added ∧
      (added.map SourceFile.srcUri).Nodup ∧ "style.css" ∉ added.map SourceFile.srcUri ∧
      "/etc/hosts" ∈ added.map SourceFile.srcUri := by
  have hstyled : styledCatalog.srcUris = ["style.css"] := by decide +kernel
  constructor
  · have hbroken : Glob.ofText "[broken" = .error ⟨0, .invalidRange⟩ := by decide +kernel
    obtain ⟨template, htemplate, cause, -, hperform⟩ := (perform_addThemeFiles styledCatalog
      Catalog.plantedTree { Catalog.plantedSearch with templates := ["[broken"] } ["style.css"]).1
        ⟨_, List.mem_singleton_self _, _, hbroken⟩
    rw [List.mem_singleton.1 htemplate] at hperform
    exact ⟨cause, hperform⟩
  · obtain ⟨filter, hfilter, added, larger, hvalue, hfiles, hadded, -⟩ :=
      (perform_addThemeFiles styledCatalog Catalog.plantedTree Catalog.plantedSearch
        ["\\etc\\hosts", "style.css", "/etc//hosts"]).2 fun _ => nofun
    rw [hstyled] at hadded
    have haccepts : (ThemeFilter.ofTemplates Catalog.plantedSearch.templates).map
        (fun filter => filter.accepts (ThemeSearch.slashed "\\etc\\hosts")) = .ok true := by
      decide +kernel
    rw [hfilter] at haccepts
    have hslashed : ThemeSearch.slashed "\\etc\\hosts" = "/etc/hosts" := by decide +kernel
    have hfound : Catalog.plantedSearch.locate? Catalog.plantedTree
        (ThemeSearch.slashed "\\etc\\hosts") = some ⟨"theme"⟩ := by
      rw [hslashed]
      simp [ThemeSearch.locate?, Catalog.plantedSearch, Catalog.isFile_plantedTree.2.2]
    have hname : (SourceFile.ofPath ⟨ThemeSearch.slashed "\\etc\\hosts"⟩ ⟨"theme"⟩ ⟨"site"⟩
        true).srcUri = "/etc/hosts" := by
      decide +kernel
    have hhosts := hadded.complete "\\etc\\hosts" List.mem_cons_self _ _
      ⟨Except.ok.inj haccepts, hfound, rfl⟩
    have hother : "/etc/hosts" ∉ ["style.css"] := by decide
    refine ⟨added, larger, hvalue, hfiles, hadded.distinct, fun hmem => ?_, ?_⟩
    · obtain ⟨f, hf, hstyle⟩ := List.mem_map.1 hmem
      exact hadded.unknown f hf (by simp [hstyle])
    · exact (hname ▸ hhosts).resolve_left hother

end Desk
end DocSite
