import DocSite.Proofs.Path.Steps
import DocSite.SourceFile

/-!
# What the names of a file decide

A source file is reached through directories under a name of its own
(`SourceFile.Stands`), and these names decide what becomes of it: its kind, the name of
its page and the names under which it is published (`publishedNames`).  Every relative
path without steps up gives such names, or none at all (`srcUri_eq_or_stands`).  A path
with steps up may end in one; if it does not, the names decide as much
(`SourceFile.IsReached`), and if it does, it names no document
(`srcUri_cases_of_isAbsolute_eq_false`).

The last name alone decides the kind, because an extension has no slash in it, and it
decides the name of the page, which is its stem.  A stem is never empty and has no slash,
so it can stand between slashes; but it may be `.` or `..`, and then it does not name a
directory of its own.
-/

namespace DocSite

/-! ## Extensions and stems -/

theorem suffix_append_slash_iff {ending front back : List Char} (h : '/' ∉ ending) :
    ending <:+ front ++ '/' :: back ↔ ending <:+ back := by
  refine ⟨fun hsuffix => ?_, fun hsuffix => ?_⟩
  · have hback : '/' :: back <:+ front ++ '/' :: back := List.suffix_append _ _
    rcases List.suffix_or_suffix_of_suffix hsuffix hback with hshort | hlong
    · rcases List.suffix_cons_iff.1 hshort with rfl | hshort
      · exact absurd (List.mem_cons_self ..) h
      · exact hshort
    · exact absurd (hlong.subset (List.mem_cons_self ..)) h
  · exact (hsuffix.trans (List.suffix_cons _ _)).trans (List.suffix_append _ _)

/-- What stands before the last slash of a text does not matter to its extension. -/
theorem hasExtension_append_slash {extensions : List String} (h : ∀ e ∈ extensions, SlashFree e)
    (s t : String) : hasExtension extensions (s ++ "/" ++ t) = hasExtension extensions t := by
  rw [Bool.eq_iff_iff, hasExtension, hasExtension, List.any_eq_true, List.any_eq_true]
  refine exists_congr fun e => and_congr_right fun he => ?_
  have htext : (s ++ "/" ++ t).toList = s.toList ++ '/' :: t.toList := by simp
  rw [List.isSuffixOf_iff_suffix, List.isSuffixOf_iff_suffix, htext]
  exact suffix_append_slash_iff (h e he)

theorem isMarkdown_joined (dirs : List String) (file : String) :
    isMarkdown (joined (dirs ++ [file])) = isMarkdown file := by
  rcases eq_or_ne dirs [] with rfl | hne
  · rw [List.nil_append, joined_singleton]
  · rw [joined_append_singleton hne]
    exact hasExtension_append_slash (by decide) _ _

/-- A stem is a beginning of its name. -/
theorem stemOfName_isPrefix (name : String) : (stemOfName name).toList <+: name.toList := by
  rw [stemOfName]
  split
  · exact List.prefix_rfl
  · exact List.prefix_rfl
  · rename_i dot before _ hdrop
    have hsuffix : dot :: before <:+ name.toList.reverse := hdrop ▸ List.dropWhile_suffix _
    rw [String.toList_ofList, ← List.reverse_suffix, List.reverse_reverse]
    exact (List.suffix_cons _ _).trans hsuffix

theorem stemOfName_ne_empty {name : String} (h : name ≠ "") : stemOfName name ≠ "" := by
  rw [stemOfName]
  split
  · exact h
  · exact h
  · rename_i dot before hlong hdrop
    exact fun hempty => hlong (by simpa using hempty)

theorem slashFree_stemOfName {name : String} (h : SlashFree name) : SlashFree (stemOfName name) :=
  fun hslash => h ((stemOfName_isPrefix name).subset hslash)

/-- A text and then a dot and no other has the text as its stem. -/
theorem stemOfName_append {stem ending : String} (hstem : stem ≠ "")
    (hdot : ∃ rest, ending.toList = '.' :: rest ∧ '.' ∉ rest) :
    stemOfName (stem ++ ending) = stem := by
  obtain ⟨rest, hending, hrest⟩ := hdot
  rw [stemOfName, String.toList_append, hending, dropWhile_reverse_append_cons hrest]
  split
  · simp_all
  · simp_all
  · rename_i heq
    obtain ⟨-, rfl⟩ := List.cons.inj heq
    simp

theorem isMarkdown_iff {text : String} :
    isMarkdown text ↔ ∃ extension ∈ markdownExtensions, ∃ stem, text = stem ++ extension := by
  rw [isMarkdown, hasExtension, List.any_eq_true]
  refine exists_congr fun extension => and_congr_right fun _ => ?_
  rw [List.isSuffixOf_iff_suffix]
  constructor
  · rintro ⟨front, hfront⟩
    exact ⟨String.ofList front, String.toList_inj.1 (by simp [hfront])⟩
  · rintro ⟨stem, rfl⟩
    exact ⟨stem.toList, by simp⟩

theorem eq_dot_cons_of_mem_markdownExtensions {extension : String}
    (h : extension ∈ markdownExtensions) : ∃ rest, extension.toList = '.' :: rest ∧ '.' ∉ rest := by
  simp only [markdownExtensions, List.mem_cons, List.not_mem_nil, or_false] at h
  rcases h with rfl | rfl | rfl | rfl | rfl <;> exact ⟨_, rfl, by decide⟩

/-- A Markdown file has a given stem when it is the stem and an extension. -/
theorem isMarkdown_and_stemOfName_iff (file : String) {stem : String} (hne : stem ≠ "")
    (hstem : stem ∉ markdownExtensions) :
    isMarkdown file ∧ stemOfName file = stem ↔ file ∈ markdownExtensions.map (stem ++ ·) := by
  rw [List.mem_map, isMarkdown_iff]
  constructor
  · rintro ⟨⟨extension, hextension, front, rfl⟩, rfl⟩
    rcases eq_or_ne front "" with rfl | hfront
    · -- a name that is all extension is its own stem
      have hself : ∀ e ∈ markdownExtensions, stemOfName ("" ++ e) = e := by decide
      rw [hself extension hextension] at hstem
      exact absurd hextension hstem
    · have hdot := eq_dot_cons_of_mem_markdownExtensions hextension
      exact ⟨extension, hextension, by rw [stemOfName_append hfront hdot]⟩
  · rintro ⟨extension, hextension, rfl⟩
    exact ⟨⟨extension, hextension, stem, rfl⟩,
      stemOfName_append hne (eq_dot_cons_of_mem_markdownExtensions hextension)⟩

/-! ## The page of a file -/

/-- A file lies under its name. -/
theorem fileName?_of_isLegalName {file : String} (h : IsLegalName file) :
    (Path.mk file).fileName? = some file := by
  have hlegal : AreLegal [file] := areLegal_nil.append_singleton h
  have hcomponents := components_joined hlegal (List.cons_ne_nil _ _)
  rw [joined_singleton] at hcomponents
  rw [Path.fileName?, hcomponents, List.map_singleton, List.getLast?_singleton]

/-- The name of the page that is made from a file; `README` and `index` both name
the page of their directory. -/
def pageName (file : String) : String :=
  if stemOfName file = "README" then "index" else stemOfName file

theorem pageName_ne_empty {file : String} (h : file ≠ "") : pageName file ≠ "" := by
  rw [pageName]
  split
  · decide
  · exact stemOfName_ne_empty h

theorem slashFree_pageName {file : String} (h : SlashFree file) : SlashFree (pageName file) := by
  rw [pageName]
  split
  · decide
  · exact slashFree_stemOfName h

theorem pageName_eq_dotDot_iff {file : String} : pageName file = ".." ↔ stemOfName file = ".." := by
  rw [pageName]
  split
  · rename_i hreadme
    rw [hreadme]
    decide
  · rfl

/-! ## What is published for a file -/

/-- The names that lead from the site to what is published for a file. -/
def publishedNames (directoryUrls : Bool) (dirs : List String) (file : String) : List String :=
  if !isMarkdown file then dirs ++ [file]
  else if !directoryUrls || pageName file = "index" then dirs ++ [pageName file ++ ".html"]
  else dirs ++ [pageName file, "index.html"]

theorem isLegalName_append_html {stem : String} (h : SlashFree stem) :
    IsLegalName (stem ++ ".html") := by
  have hlast : (stem ++ ".html").toList.getLast? = some 'l' := by
    rw [String.toList_append, List.getLast?_append_of_ne_nil _ (by decide)]
    decide
  refine ⟨?_, ?_, ?_, ?_⟩
  iterate 3 exact fun heq => absurd (heq ▸ hlast) (by decide)
  rw [SlashFree, String.toList_append, List.mem_append, not_or]
  exact ⟨h, by decide⟩

/-- What is published for a file has a legal name in the directory of the file, but
for a page in directory style, which has the name of the page for a directory. -/
theorem publishedNames_cases {file : String} (h : IsLegalName file) (directoryUrls : Bool)
    (dirs : List String) :
    (∃ last, publishedNames directoryUrls dirs file = dirs ++ [last] ∧ IsLegalName last ∧
      (isMarkdown file → ∃ stem, last = stem ++ ".html")) ∨
    isMarkdown file ∧ directoryUrls ∧ pageName file ≠ "index" ∧
      publishedNames directoryUrls dirs file = dirs ++ [pageName file, "index.html"] := by
  rw [publishedNames]
  by_cases hmarkdown : isMarkdown file
  · by_cases hflat : !directoryUrls || pageName file = "index"
    · refine .inl ⟨_, by rw [if_neg (by simp [hmarkdown]), if_pos hflat], ?_, fun _ => ⟨_, rfl⟩⟩
      exact isLegalName_append_html (slashFree_pageName h.2.2.2)
    · have hstyle : directoryUrls ∧ pageName file ≠ "index" := by
        rw [Bool.or_eq_true, not_or] at hflat
        simpa using hflat
      exact .inr ⟨hmarkdown, hstyle.1, hstyle.2, by rw [if_neg (by simp [hmarkdown]), if_neg hflat]⟩
  · exact .inl ⟨file, if_pos (by simpa using hmarkdown), h, fun h => absurd h hmarkdown⟩

theorem publishedNames_ne_nil (directoryUrls : Bool) (dirs : List String) (file : String) :
    publishedNames directoryUrls dirs file ≠ [] := by
  rw [publishedNames]
  split
  · simp
  · split <;> simp

/-! ## Paths that lead down -/

/-- A path is relative and has no step up. -/
def Path.LeadsDown (p : Path) : Prop :=
  p.isAbsolute = false ∧ .up ∉ p.components

instance (p : Path) : Decidable p.LeadsDown :=
  inferInstanceAs (Decidable (_ ∧ _))

/-- The steps of such a path are names, apart from a leading `.`. -/
theorem Path.LeadsDown.isLegalName {p : Path} (h : p.LeadsDown) {step : Component}
    (hstep : step ∈ p.components) (hhere : step ≠ .here) :
    ∃ name, IsLegalName name ∧ step = .name name := by
  have hstep' := hstep
  rw [Path.components, List.mem_append] at hstep'
  rcases hstep' with hlead | hpiece
  · rw [Path.lead, if_neg (by simp [h.1])] at hlead
    split at hlead
    · exact absurd (by simpa using hlead) hhere
    · simp at hlead
  · obtain ⟨piece, hpiece, hstep'⟩ := List.mem_filterMap.1 hpiece
    rw [Component.ofPiece?] at hstep'
    split at hstep'
    · simp at hstep'
    · rename_i hskip
      rw [not_or] at hskip
      split at hstep'
      · exact absurd (Option.some.inj hstep' ▸ hstep) h.2
      · rename_i hnotUp
        exact ⟨piece, ⟨hskip.1, hskip.2, hnotUp, slashFree_of_mem_pieces hpiece⟩,
          (Option.some.inj hstep').symm⟩

theorem exists_eq_map_name {steps : List Component}
    (h : ∀ step ∈ steps, ∃ name, IsLegalName name ∧ step = .name name) :
    ∃ names, AreLegal names ∧ steps = names.map .name := by
  induction steps with
  | nil => exact ⟨[], areLegal_nil, rfl⟩
  | cons step rest ih =>
    obtain ⟨name, hname, rfl⟩ := h step (List.mem_cons_self ..)
    obtain ⟨names, hnames, rfl⟩ := ih fun other hother => h other (List.mem_cons_of_mem _ hother)
    refine ⟨name :: names, fun other hother => ?_, rfl⟩
    rcases List.mem_cons.1 hother with rfl | hother
    · exact hname
    · exact hnames other hother

/-! ## The names that lead to a file -/

namespace SourceFile

/-- A file is reached through directories under a name. -/
structure Stands (f : SourceFile) (dirs : List String) (file : String) : Prop where
  legal : AreLegal (dirs ++ [file])
  srcUri : f.srcUri = joined (dirs ++ [file])

/-- A file is reached under a name through directories and perhaps steps up. -/
structure IsReached (f : SourceFile) (dirs : List String) (file : String) : Prop where
  parts_dirs : AreParts dirs
  legal_file : IsLegalName file
  srcUri : f.srcUri = joined (dirs ++ [file])

namespace IsReached

variable {f : SourceFile} {dirs : List String} {file : String}

theorem areParts (h : f.IsReached dirs file) : AreParts (dirs ++ [file]) :=
  h.parts_dirs.append (areParts_singleton h.legal_file.1 h.legal_file.2.2.2)

theorem isDocumentation (h : f.IsReached dirs file) : f.isDocumentation = isMarkdown file := by
  rw [SourceFile.isDocumentation, h.srcUri, isMarkdown_joined]

theorem cutLast_srcUri (h : f.IsReached dirs file) : cutLast f.srcUri = (joined dirs, file) := by
  rw [h.srcUri, cutLast_joined h.areParts.slashFree]

theorem name (h : f.IsReached dirs file) : f.name = pageName file := by
  have hlast : (cutLast f.srcUri).2 = file := by rw [h.cutLast_srcUri]
  unfold SourceFile.name
  rw [hlast, fileName?_of_isLegalName h.legal_file, pageName]

theorem areParts_page (h : f.IsReached dirs file) : AreParts (dirs ++ [pageName file]) :=
  h.parts_dirs.append (areParts_singleton (pageName_ne_empty h.legal_file.1)
    (slashFree_pageName h.legal_file.2.2.2))

theorem areParts_publishedNames (h : f.IsReached dirs file) (directoryUrls : Bool) :
    AreParts (publishedNames directoryUrls dirs file) := by
  obtain ⟨last, hnames, hlast, -⟩ | ⟨-, -, -, hnames⟩ :=
    publishedNames_cases h.legal_file directoryUrls dirs
  · rw [hnames]
    exact h.parts_dirs.append (areParts_singleton hlast.1 hlast.2.2.2)
  · rw [hnames, ← List.singleton_append, ← List.append_assoc]
    exact h.areParts_page.append (areParts_singleton (by decide) (by decide))

/-- **What is published for a file is reached under its published names.** -/
theorem destUri (h : f.IsReached dirs file) :
    f.destUri = joined (publishedNames f.directoryUrls dirs file) := by
  simp only [SourceFile.destUri, publishedNames, h.cutLast_srcUri, h.isDocumentation, h.name]
  split
  · exact h.srcUri
  · split
    · exact under_joined_of_areParts h.parts_dirs _
    · rw [under_joined_of_areParts h.parts_dirs, under_joined_of_areParts h.areParts_page,
        List.append_assoc, List.singleton_append]

end IsReached

namespace Stands

variable {f : SourceFile} {dirs : List String} {file : String}

theorem legal_file (h : f.Stands dirs file) : IsLegalName file :=
  h.legal file (by simp)

theorem legal_dirs (h : f.Stands dirs file) : AreLegal dirs :=
  fun name hname => h.legal name (List.mem_append_left _ hname)

theorem isReached (h : f.Stands dirs file) : f.IsReached dirs file :=
  ⟨h.legal_dirs.areParts, h.legal_file, h.srcUri⟩

theorem pieces_srcUri (h : f.Stands dirs file) : pieces f.srcUri = dirs ++ [file] := by
  rw [h.srcUri, pieces_joined (by simp) h.legal.slashFree]

theorem isDocumentation (h : f.Stands dirs file) : f.isDocumentation = isMarkdown file :=
  h.isReached.isDocumentation

theorem name (h : f.Stands dirs file) : f.name = pageName file :=
  h.isReached.name

theorem areParts_publishedNames (h : f.Stands dirs file) (directoryUrls : Bool) :
    AreParts (publishedNames directoryUrls dirs file) :=
  h.isReached.areParts_publishedNames directoryUrls

theorem destUri (h : f.Stands dirs file) :
    f.destUri = joined (publishedNames f.directoryUrls dirs file) :=
  h.isReached.destUri

end Stands

/-- Names with slashes between them lead through the directories before the last one. -/
theorem stands_of_path {f : SourceFile} {dirs : List String} {file : String}
    (h : AreLegal (dirs ++ [file])) (hpath : f.path = ⟨joined (dirs ++ [file])⟩) :
    f.Stands dirs file :=
  ⟨h, by rw [srcUri, hpath, portable_joined h (by simp)]⟩

/-- A path that leads down leads through directories to a name, or to nothing at all. -/
theorem srcUri_eq_or_stands {f : SourceFile} (h : f.path.LeadsDown) :
    f.srcUri = "" ∨ ∃ dirs file, f.Stands dirs file := by
  obtain ⟨names, hlegal, hnames⟩ := exists_eq_map_name fun step hstep =>
    h.isLegalName (List.mem_filter.1 hstep).1 (of_decide_eq_true (List.mem_filter.1 hstep).2)
  have hroot : names.map Component.name ≠ [.root] := by
    intro heq
    have hmem : Component.root ∈ names.map Component.name := by simp [heq]
    simp at hmem
  have hsrc : f.srcUri = joined names := by
    rw [srcUri, Path.portable, hnames, Path.ofComponents, if_neg hroot, List.map_map]
    simp [Function.comp_def, Component.piece]
  rcases List.eq_nil_or_concat' names with rfl | ⟨dirs, file, rfl⟩
  · exact .inl (by rw [hsrc, joined_nil])
  · exact .inr ⟨dirs, file, hlegal, hsrc⟩

/-- A relative path leads to nothing, or ends in a step up and names no document, or it
leads to a name. -/
theorem srcUri_cases_of_isAbsolute_eq_false {f : SourceFile} (h : f.path.isAbsolute = false) :
    f.srcUri = "" ∨
      (∃ dirs, AreParts (dirs ++ [".."]) ∧ f.srcUri = joined (dirs ++ [".."]) ∧
        f.isDocumentation = false) ∨
      ∃ dirs file, f.IsReached dirs file := by
  obtain ⟨steps, hsteps, hsrc⟩ := Path.exists_portable_eq h
  rcases List.eq_nil_or_concat' steps with rfl | ⟨front, last, rfl⟩
  · exact .inl hsrc
  · have hfront : AreParts (front.map Component.piece) :=
      Path.AreRelative.areParts fun step hstep => hsteps step (List.mem_append_left _ hstep)
    rw [List.map_append, List.map_singleton] at hsrc
    rcases hsteps last (by simp) with rfl | ⟨file, hfile, rfl⟩
    · refine .inr (.inl ⟨_, hfront.append (areParts_singleton (by decide) (by decide)), hsrc, ?_⟩)
      rw [isDocumentation, srcUri, hsrc, isMarkdown_joined]
      decide
    · exact .inr (.inr ⟨_, file, hfront, hfile, hsrc⟩)

end SourceFile
end DocSite
