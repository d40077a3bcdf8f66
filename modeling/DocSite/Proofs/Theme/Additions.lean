import DocSite.Proofs.Catalog.Session
import DocSite.Proofs.FileSystem.Way
import DocSite.Proofs.Path.Spelling
import DocSite.Proofs.SourceFile.Outputs
import DocSite.Proofs.Theme.Filter

/-!
# What themes add

Every file that themes add to a catalog goes to its end, and it was brought by a
candidate: by a path that is published and found in one of the themes
(`Catalog.exists_added`).

Nothing looks at whether the path stays in the theme in which it was found.  But the
filter keeps back every piece that begins with a dot, and with it every step up; and what
is found is a file, so its path ends in a name (`FileSystem.eq_directory_of_locate`).
What is left is a row of names (`Path.exists_components_eq`), which leads from the theme,
and from the site, to something inside of it (`ThemeSearch.Brings.liesIn`).  The last of
the names is not that of a document (`ThemeSearch.Brings.isDocumentation_eq_false`).

Only a path that begins with a slash leads elsewhere, and a backslash counts as a slash.
Such a path is joined to nothing: it is found wherever the themes are, and it is also the
path to which the file is published (`ThemeSearch.Brings.srcPath_eq`).
-/

namespace DocSite

/-! ## What is brought -/

/-- A file is brought to a catalog by a candidate, from a theme. -/
structure ThemeSearch.Brings (search : ThemeSearch) (fs : FileSystem) (filter : ThemeFilter)
    (candidate : String) (dir : Path) (f : SourceFile) : Prop where
  accepts : filter.accepts (ThemeSearch.slashed candidate)
  found : search.locate? fs (ThemeSearch.slashed candidate) = some dir
  file : f = .ofPath ⟨ThemeSearch.slashed candidate⟩ dir search.site search.directoryUrls

namespace Catalog

variable {fs : FileSystem} {search : ThemeSearch} {filter : ThemeFilter}

/-- A candidate adds nothing, or the file that it brings. -/
theorem addCandidate_listing_cases (fs : FileSystem) (search : ThemeSearch)
    (filter : ThemeFilter) (made : Nat × List SourceFile) (candidate : String) :
    (Desk.Listing.addCandidate fs search filter made candidate).value.2 = made.2 ∨
      ∃ dir f, search.Brings fs filter candidate dir f ∧
        (Desk.Listing.addCandidate fs search filter made candidate).value.2 = made.2 ++ [f] := by
  rw [Desk.Listing.addCandidate]
  split
  · rename_i hpublished
    rw [Bool.and_eq_true] at hpublished
    split
    · exact .inl rfl
    · rename_i dir hdir
      rw [Journal.value_bind, Journal.value_pure, Desk.Listing.append]
      split
      · exact .inl (by simp)
      · exact .inr ⟨dir, _, ⟨hpublished.1, hdir, rfl⟩, by simp⟩
  · exact .inl rfl

/-- **What is added was brought**: some candidates in turn put files that they bring at the
end of a list, and change nothing else. -/
theorem exists_added (candidates : List String) (made : Nat × List SourceFile) :
    ∃ added, (candidates.foldlM (Desk.Listing.addCandidate fs search filter) made).value.2 =
        made.2 ++ added ∧
      ∀ f ∈ added, ∃ candidate ∈ candidates, ∃ dir, search.Brings fs filter candidate dir f := by
  induction candidates generalizing made with
  | nil => exact ⟨[], by simp, by simp⟩
  | cons candidate rest ih =>
    obtain ⟨added, hfiles, hbrought⟩ :=
      ih (Desk.Listing.addCandidate fs search filter made candidate).value
    rw [List.foldlM_cons, Journal.value_bind, hfiles]
    have hlater : ∀ f ∈ added, ∃ other ∈ candidate :: rest, ∃ dir,
        search.Brings fs filter other dir f := by
      intro f hf
      obtain ⟨other, hother, hbrings⟩ := hbrought f hf
      exact ⟨other, List.mem_cons_of_mem _ hother, hbrings⟩
    rcases addCandidate_listing_cases fs search filter made candidate with
      hsame | ⟨dir, f, hbrings, hmore⟩
    · exact ⟨added, by rw [hsame], hlater⟩
    · refine ⟨f :: added, by rw [hmore, List.append_assoc, List.singleton_append], ?_⟩
      intro g hg
      rcases List.mem_cons.1 hg with rfl | hg
      · exact ⟨candidate, List.mem_cons_self .., dir, hbrings⟩
      · exact hlater g hg

/-- The files that are left are those of the list without an index. -/
theorem files_of_addThemeFiles {c : Catalog} {candidates : List String}
    {journal : Journal (Nat × Catalog)} (h : c.addThemeFiles fs search candidates = .ok journal) :
    ∃ filter, ThemeFilter.ofTemplates search.templates = .ok filter ∧ journal.value.2.files =
      (candidates.foldlM (Desk.Listing.addCandidate fs search filter) (0, c.files)).value.2 := by
  rw [Desk.addThemeFiles_eq] at h
  cases hfilter : ThemeFilter.ofTemplates search.templates with
  | error refusal =>
    rw [hfilter] at h
    simp [Except.map] at h
  | ok filter =>
    rw [hfilter] at h
    obtain rfl := Except.ok.inj h
    refine ⟨filter, rfl, ?_⟩
    have hlisting := Desk.map_foldlM (Desk.addCandidate_listing fs search filter) (0, c) candidates
    rw [Desk.seen] at hlisting
    rw [← hlisting, Journal.value_map, Desk.seen]

theorem exists_added_of_addThemeFiles {c : Catalog} {candidates : List String}
    {journal : Journal (Nat × Catalog)} (h : c.addThemeFiles fs search candidates = .ok journal) :
    ∃ filter, ThemeFilter.ofTemplates search.templates = .ok filter ∧
      ∃ added, journal.value.2.files = c.files ++ added ∧
        ∀ f ∈ added, ∃ candidate ∈ candidates, ∃ dir, search.Brings fs filter candidate dir f := by
  obtain ⟨filter, hfilter, hfiles⟩ := files_of_addThemeFiles h
  rw [hfiles]
  exact ⟨filter, hfilter, exists_added candidates (0, c.files)⟩

end Catalog

/-! ## Paths of files end in names -/

namespace FileSystem

variable {fs : FileSystem}

/-- The empty piece behind a slash leads from a directory to itself. -/
theorem Way.of_empty {budget left : Nat} {here place : Location}
    (h : Way fs budget here [""] left place) : fs.get? here = some .directory ∧ place = here := by
  generalize hsteps : [""] = steps at h
  cases h with
  | done => simp at hsteps
  | stay hdir _ hrest =>
    obtain ⟨-, rfl⟩ := List.cons.inj hsteps
    cases hrest
    exact ⟨hdir, rfl⟩
  | up => simp at hsteps
  | down _ hsought => exact absurd (.inl (List.cons.inj hsteps).1.symm) hsought.1
  | link _ hsought => exact absurd (.inl (List.cons.inj hsteps).1.symm) hsought.1

/-- What a slash stands behind is a directory. -/
theorem eq_directory_of_locate {path : Path} {front : List String}
    (hpieces : pieces path.text = front ++ [""]) {place : Location} {entry : Entry}
    (h : fs.locate path = .ok (place, entry)) : entry = .directory := by
  obtain ⟨-, ⟨left, hway⟩, hentry⟩ := locate_eq_ok_iff.1 h
  rw [hpieces] at hway
  obtain ⟨between, middle, -, hlast⟩ := hway.exists_of_append
  obtain ⟨hdir, rfl⟩ := hlast.of_empty
  exact Option.some.inj (hentry.symm.trans hdir)

/-- The path of a file does not end in a slash. -/
theorem getLast?_pieces_of_isFile {dir path : Path} (h : fs.isFile (dir.join path)) :
    (pieces path.text).getLast? ≠ some "" := by
  intro hlast
  obtain ⟨front, hfront⟩ := List.getLast?_eq_some_iff.1 hlast
  have hends : ∃ front, pieces (dir.join path).text = front ++ [""] := by
    cases hpath : path.isAbsolute with
    | true => exact ⟨front, by rw [Path.join, if_pos hpath, hfront]⟩
    | false =>
      obtain ⟨before, -, -, -, hpieces⟩ := dir.exists_pieces_join hpath
      exact ⟨before ++ front, by rw [hpieces, hfront, List.append_assoc]⟩
  obtain ⟨others, hothers⟩ := hends
  rw [isFile] at h
  split at h
  · rename_i place content mtime hlocate
    exact absurd (eq_directory_of_locate hothers hlocate) (by simp)
  · simp at h

end FileSystem

/-! ## Paths without hidden pieces -/

/-- Without hidden pieces there is no step up. -/
theorem filterMap_ofPiece?_of_visible {parts : List String}
    (h : ∀ part ∈ parts, part.toList.head? ≠ some '.') :
    parts.filterMap Component.ofPiece? = (parts.filter (· ≠ "")).map .name := by
  induction parts with
  | nil => rfl
  | cons part rest ih =>
    have hpart := h part (List.mem_cons_self ..)
    have hdot : part ≠ "." := by
      rintro rfl
      exact hpart rfl
    have hdotDot : part ≠ ".." := by
      rintro rfl
      exact hpart rfl
    have hrest := ih fun other hother => h other (List.mem_cons_of_mem _ hother)
    by_cases hempty : part = ""
    · rw [List.filterMap_cons_none (by rw [Component.ofPiece?, if_pos (.inl hempty)]), hrest,
        List.filter_cons_of_neg (by simpa using hempty)]
    · rw [List.filterMap_cons_some (by
          rw [Component.ofPiece?, if_neg (not_or.2 ⟨hempty, hdot⟩), if_neg hdotDot]), hrest,
        List.filter_cons_of_pos (by simpa using hempty), List.map_cons]

/-- A path without hidden pieces that ends in a name is read as a row of names, from the
root if it begins there. -/
theorem Path.exists_components_eq {path : Path}
    (hvisible : ∀ piece ∈ pieces path.text, piece.toList.head? ≠ some '.')
    (hends : (pieces path.text).getLast? ≠ some "") : ∃ dirs file, AreLegal (dirs ++ [file]) ∧
      path.components =
        (if path.isAbsolute then [.root] else []) ++ (dirs ++ [file]).map .name ∧
      isMarkdown path.text = isMarkdown file := by
  obtain ⟨front, file, hpieces⟩ := (List.eq_nil_or_concat' _).resolve_left (pieces_ne_nil path.text)
  have hfile : file ≠ "" := by
    rintro rfl
    exact hends (by rw [hpieces, List.getLast?_concat])
  have hnames : (pieces path.text).filter (· ≠ "") = front.filter (· ≠ "") ++ [file] := by
    rw [hpieces, List.filter_append, List.filter_cons_of_pos (by simpa using hfile),
      List.filter_nil]
  have hlead : path.lead.toList = if path.isAbsolute then [.root] else [] := by
    rw [lead]
    split
    · rfl
    · rw [if_neg fun hhere => ?_]
      · rfl
      · exact hvisible "." (List.mem_of_head? hhere) rfl
  refine ⟨front.filter (· ≠ ""), file, ?_, ?_, ?_⟩
  · intro name hname
    rw [← hnames, List.mem_filter] at hname
    have hdotless := hvisible name hname.1
    refine ⟨by simpa using hname.2, ?_, ?_, slashFree_of_mem_pieces hname.1⟩ <;> rintro rfl <;>
      exact hdotless rfl
  · rw [components, hlead, filterMap_ofPiece?_of_visible hvisible, hnames]
  · rw [← joined_pieces path.text, hpieces, isMarkdown_joined]

namespace Path

variable {path : Path} {names : List String}

theorem portable_eq_of_components (h : path.components =
    (if path.isAbsolute then [.root] else []) ++ names.map .name) :
    path.portable = (ofComponents path.components).text := by
  rw [portable, List.filter_eq_self.2]
  intro step hstep
  have hne : step ≠ .here := by
    rintro rfl
    rw [h] at hstep
    split at hstep <;> simp at hstep
  simpa using hne

/-- A row of names from the root, put down and read again, names the same place. -/
theorem normalize_portable (hlegal : AreLegal names) (habsolute : path.isAbsolute = true)
    (h : path.components = (if path.isAbsolute then [.root] else []) ++ names.map .name) :
    (Path.mk path.portable).isAbsolute = true ∧
      (Path.mk path.portable).normalize = path.normalize := by
  have hsteps : path.components = .root :: names.map .name := by
    rw [h, if_pos habsolute, List.singleton_append]
  have hread : (Path.mk path.portable).components = path.components := by
    rw [portable_eq_of_components h, hsteps]
    exact components_ofComponents_root hlegal
  refine ⟨(root_mem_components_iff _).1 ?_, by rw [normalize, normalize, hread]⟩
  rw [hread, hsteps]
  exact List.mem_cons_self ..

theorem portable_eq_joined (hrelative : path.isAbsolute = false)
    (h : path.components = (if path.isAbsolute then [.root] else []) ++ names.map .name) :
    path.portable = joined names := by
  rw [portable_eq_of_components h, h, if_neg (by simp [hrelative]), List.nil_append,
    text_ofComponents_map_name]

theorem isMarkdown_portable {dirs : List String} {file : String} (h : path.components =
    (if path.isAbsolute then [.root] else []) ++ (dirs ++ [file]).map .name) :
    isMarkdown path.portable = isMarkdown file := by
  cases habsolute : path.isAbsolute with
  | false => rw [portable_eq_joined habsolute h, isMarkdown_joined]
  | true =>
    rw [portable_eq_of_components h, h, if_pos habsolute, List.singleton_append, ofComponents,
      if_neg (by simp), List.map_cons, List.map_map]
    simpa [Component.piece, Function.comp_def] using isMarkdown_joined ("" :: dirs) file

end Path

/-! ## Where it lies -/

namespace ThemeSearch.Brings

variable {fs : FileSystem} {search : ThemeSearch} {filter : ThemeFilter} {candidate : String}
  {dir : Path} {f : SourceFile}

theorem dir_mem (h : search.Brings fs filter candidate dir f) : dir ∈ search.dirs :=
  List.mem_of_find?_eq_some h.found

theorem path_eq (h : search.Brings fs filter candidate dir f) : f.path = ⟨slashed candidate⟩ := by
  rw [h.file, SourceFile.ofPath]

theorem root_eq (h : search.Brings fs filter candidate dir f) : f.root = dir := by
  rw [h.file, SourceFile.ofPath]

theorem site_eq (h : search.Brings fs filter candidate dir f) : f.site = search.site := by
  rw [h.file, SourceFile.ofPath]

theorem isFile (h : search.Brings fs filter candidate dir f) : fs.isFile (dir.join f.path) := by
  have hfound := h.found
  rw [locate?] at hfound
  rw [h.path_eq]
  simpa using List.find?_some hfound

/-- **What is brought is read as a row of names**, of which the last is not that of a
document. -/
theorem exists_components_eq (hfilter : ThemeFilter.ofTemplates search.templates = .ok filter)
    (h : search.Brings fs filter candidate dir f) :
    ∃ dirs file, AreLegal (dirs ++ [file]) ∧ isMarkdown file = false ∧
      f.path.components =
        (if f.path.isAbsolute then [.root] else []) ++ (dirs ++ [file]).map .name := by
  have haccepts : filter.accepts f.path.text := by
    rw [h.path_eq]
    exact h.accepts
  obtain ⟨dirs, file, hlegal, hcomponents, hkind⟩ := Path.exists_components_eq
    (ThemeFilter.head?_ne_dot_of_accepts hfilter haccepts)
    (FileSystem.getLast?_pieces_of_isFile h.isFile)
  refine ⟨dirs, file, hlegal, ?_, hcomponents⟩
  rw [← hkind]
  exact ThemeFilter.isMarkdown_of_accepts hfilter haccepts

/-- **Themes bring no documents.** -/
theorem isDocumentation_eq_false
    (hfilter : ThemeFilter.ofTemplates search.templates = .ok filter)
    (h : search.Brings fs filter candidate dir f) : f.isDocumentation = false := by
  obtain ⟨dirs, file, -, hkind, hcomponents⟩ := h.exists_components_eq hfilter
  rw [SourceFile.isDocumentation, SourceFile.srcUri, Path.isMarkdown_portable hcomponents, hkind]

/-- What is brought by a relative path is read from its theme and published in the site. -/
theorem liesIn (hfilter : ThemeFilter.ofTemplates search.templates = .ok filter)
    (h : search.Brings fs filter candidate dir f) (hrelative : f.path.isAbsolute = false) :
    f.srcPath.LiesIn dir.normalize ∧ f.destPath.LiesIn search.site.normalize := by
  obtain ⟨dirs, file, hlegal, -, hcomponents⟩ := h.exists_components_eq hfilter
  have hstands : f.Stands dirs file := ⟨hlegal, Path.portable_eq_joined hrelative hcomponents⟩
  have hclimb : ¬ f.ClimbsOut := by
    rw [hstands.climbsOut_iff, ← hstands.isDocumentation, h.isDocumentation_eq_false hfilter]
    simp
  rw [← h.root_eq, ← h.site_eq, hstands.liesIn_destPath_iff]
  exact ⟨hstands.liesIn_srcPath, fun hout => hclimb hout.1⟩

/-- What is brought by an absolute path is read from there, and published there. -/
theorem srcPath_eq (hfilter : ThemeFilter.ofTemplates search.templates = .ok filter)
    (h : search.Brings fs filter candidate dir f) (habsolute : f.path.isAbsolute = true) :
    f.srcPath = f.path.normalize ∧ f.destPath = f.path.normalize := by
  obtain ⟨dirs, file, hlegal, -, hcomponents⟩ := h.exists_components_eq hfilter
  obtain ⟨hroot, hplace⟩ := Path.normalize_portable hlegal habsolute hcomponents
  have hdestUri : f.destUri = f.srcUri := by
    rw [SourceFile.destUri, h.isDocumentation_eq_false hfilter]
    rfl
  rw [SourceFile.srcPath, SourceFile.destPath, hdestUri, SourceFile.srcUri, Path.join,
    Path.join, if_pos hroot, if_pos hroot]
  exact ⟨hplace, hplace⟩

end ThemeSearch.Brings

end DocSite
