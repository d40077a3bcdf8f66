import DocSite.Proofs.Path.Steps
import DocSite.Proofs.SourceFile.Naming
import DocSite.Proofs.Url.Relative

/-!
# Where a file is read and written

The names that lead to a file are legal, so they stay as they are when a path is made
normal, and a file is read from below its root (`Stands.liesIn_srcPath`).  In most cases
the names under which it is published are legal too, and it is written below its site.

A page in directory style is written into a directory with the name of the page, which
is the stem of a file name and may be `.` or `..`.  A `.` leads nowhere else.  A `..`
leads out of the directory of the file, which still is below the site when the file lies
in a directory of its own.  Only a file like `...md` at the top climbs out of the site
(`Stands.liesIn_destPath_iff`).

`outputNames` are the names that are left when the detours are taken out.  Of two files
of one site, the output names decide whether one is written at or above the place of the
other (`Stands.components_destPath`).
-/

namespace DocSite
namespace SourceFile

/-- The names that lead from the site to what is written for a file, without detours. -/
def outputNames (f : SourceFile) : List String :=
  Url.settled (pieces f.destUri)

/-- The names of the directories that lead to a file. -/
def folder (f : SourceFile) : List String :=
  (pieces f.srcUri).dropLast

/-- A page in directory style that is named by two dots and lies at the top. -/
def ClimbsOut (f : SourceFile) : Prop :=
  f.directoryUrls ∧ f.srcUri ∈ markdownExtensions.map (".." ++ ·)

instance (f : SourceFile) : Decidable f.ClimbsOut :=
  inferInstanceAs (Decidable (_ ∧ _))

namespace Stands

variable {f : SourceFile} {dirs : List String} {file : String}

theorem climbsOut_iff (h : f.Stands dirs file) :
    f.ClimbsOut ↔ f.directoryUrls ∧ isMarkdown file ∧ dirs = [] ∧ pageName file = ".." := by
  have hname := isMarkdown_and_stemOfName_iff file (by decide : ".." ≠ "") (by decide)
  have htop : f.srcUri ∈ markdownExtensions.map (".." ++ ·) ↔
      dirs = [] ∧ file ∈ markdownExtensions.map (".." ++ ·) := by
    constructor
    · intro hmem
      have hfree : ∀ text ∈ markdownExtensions.map (".." ++ ·), SlashFree text := by decide
      have hpieces := h.pieces_srcUri
      rw [pieces_of_slashFree (hfree _ hmem)] at hpieces
      obtain ⟨rfl, hfile⟩ := List.append_eq_singleton_iff.1 hpieces.symm |>.resolve_right (by simp)
      exact ⟨rfl, List.singleton_inj.1 hfile ▸ hmem⟩
    · rintro ⟨rfl, hfile⟩
      rwa [h.srcUri, List.nil_append, joined_singleton]
  rw [ClimbsOut, htop, ← hname, pageName_eq_dotDot_iff]
  tauto

theorem folder_eq (h : f.Stands dirs file) : f.folder = dirs := by
  rw [folder, h.pieces_srcUri, List.dropLast_concat]

/-- The names that lead to a file are read off the file. -/
theorem eq_of_stands {others : List String} {other : String} (h : f.Stands dirs file)
    (h' : f.Stands others other) : dirs = others ∧ file = other := by
  have hpieces := h.pieces_srcUri.symm.trans h'.pieces_srcUri
  obtain ⟨hdirs, hfile⟩ := List.append_inj' hpieces rfl
  exact ⟨hdirs, List.singleton_inj.1 hfile⟩

theorem pieces_destUri (h : f.Stands dirs file) :
    pieces f.destUri = publishedNames f.directoryUrls dirs file := by
  rw [h.destUri,
    pieces_joined (publishedNames_ne_nil _ _ _) (h.areParts_publishedNames _).slashFree]

theorem areLegal_outputNames (f : SourceFile) : AreLegal f.outputNames :=
  Url.areLegal_settled fun _ hpiece => slashFree_of_mem_pieces hpiece

/-- A file is written into its own directory under a legal name, or it is a page in
directory style, which is written under the name of the page, whatever this name is. -/
theorem outputNames_cases (h : f.Stands dirs file) :
    (∃ last, f.outputNames = dirs ++ [last] ∧
      publishedNames f.directoryUrls dirs file = dirs ++ [last] ∧ IsLegalName last) ∨
    isMarkdown file ∧ f.directoryUrls ∧ pageName file ≠ "index" ∧
      publishedNames f.directoryUrls dirs file = dirs ++ [pageName file, "index.html"] ∧
      f.outputNames = Url.settled (dirs ++ [pageName file]) ++ ["index.html"] := by
  rw [outputNames, h.pieces_destUri]
  obtain ⟨last, hnames, hlast, -⟩ | ⟨hmarkdown, hdirectoryUrls, hname, hnames⟩ :=
    publishedNames_cases h.legal_file f.directoryUrls dirs
  · refine .inl ⟨last, ?_, hnames, hlast⟩
    rw [hnames, Url.settled_of_areLegal (h.legal_dirs.append_singleton hlast)]
  · refine .inr ⟨hmarkdown, hdirectoryUrls, hname, hnames, ?_⟩
    have hindex : IsLegalName "index.html" := by decide
    rw [hnames, Url.settled, Url.settled, ← List.singleton_append, ← List.append_assoc,
      List.foldl_append, List.foldl_cons, List.foldl_nil, Url.pushName_of_isLegalName hindex,
      List.reverse_cons]

/-- What is no page is written under the names that lead to it. -/
theorem outputNames_of_not_isDocumentation (h : f.Stands dirs file) (hpage : ¬ f.isDocumentation) :
    f.outputNames = dirs ++ [file] := by
  have hkind : isMarkdown file = false := by
    rw [← h.isDocumentation]
    simpa using hpage
  rw [outputNames, h.pieces_destUri, publishedNames, hkind]
  exact Url.settled_of_areLegal h.legal

/-- A page in directory style that is no index page is written into a directory. -/
theorem outputNames_of_page (h : f.Stands dirs file) (hpage : f.isDocumentation)
    (hstyle : f.directoryUrls) (hname : pageName file ≠ "index") :
    f.outputNames = Url.settled (dirs ++ [pageName file]) ++ ["index.html"] := by
  rw [h.isDocumentation] at hpage
  obtain ⟨last, -, hnames, -⟩ | ⟨-, -, -, -, hout⟩ := h.outputNames_cases
  · simp [publishedNames, hpage, hstyle, hname] at hnames
  · exact hout

/-- The directory in which a file is written is around the file, or it is the directory
of a page. -/
theorem dropLast_outputNames_cases (h : f.Stands dirs file) :
    f.outputNames.dropLast = dirs ∨
      f.isDocumentation ∧ f.directoryUrls ∧ f.name ≠ "index" ∧
        f.outputNames.dropLast <+: dirs ++ [f.name] := by
  rw [h.isDocumentation, h.name]
  obtain ⟨last, hout, -⟩ | ⟨hmarkdown, hstyle, hname, -, hout⟩ := h.outputNames_cases
  · exact .inl (by rw [hout, List.dropLast_concat])
  · refine .inr ⟨hmarkdown, hstyle, hname, ?_⟩
    rw [hout, List.dropLast_concat]
    exact Url.settled_append_singleton_isPrefix h.legal_dirs _

/-- **A file is written where its output names lead from the site**, unless it climbs
out. -/
theorem stack_site_join (h : f.Stands dirs file) (hclimb : ¬ f.ClimbsOut) :
    (f.site.join ⟨f.destUri⟩).stack = (f.outputNames.map .name).reverse ++ f.site.stack := by
  have hindex : IsLegalName "index.html" := by decide
  rw [h.destUri,
    Path.stack_join_joined _ (h.areParts_publishedNames _) (publishedNames_ne_nil _ _ _)]
  obtain ⟨last, hout, hnames, hlast⟩ | ⟨hmarkdown, hdirectoryUrls, -, hnames, hout⟩ :=
    h.outputNames_cases
  · rw [hnames, hout, foldl_pushPiece_of_areLegal (h.legal_dirs.append_singleton hlast)]
  · rw [hnames, hout, List.foldl_append, foldl_pushPiece_of_areLegal h.legal_dirs, List.foldl_cons,
      List.foldl_cons, List.foldl_nil, pushPiece_of_isLegalName hindex,
      Url.settled_append_singleton h.legal_dirs]
    by_cases hhere : pageName file = "."
    · simp [hhere, Url.pushName]
    by_cases hup : pageName file = ".."
    · obtain ⟨init, dir, rfl⟩ := (List.eq_nil_or_concat' dirs).resolve_left fun hnil =>
        hclimb (h.climbsOut_iff.2 ⟨hdirectoryUrls, hmarkdown, hnil, hup⟩)
      simp [hup, Url.pushName, pushStep]
    · have hname : IsLegalName (pageName file) := ⟨pageName_ne_empty h.legal_file.1, hhere, hup,
        slashFree_pageName h.legal_file.2.2.2⟩
      rw [pushPiece_of_isLegalName hname, Url.pushName_of_isLegalName hname]
      simp

theorem outputNames_ne_nil (h : f.Stands dirs file) : f.outputNames ≠ [] := by
  obtain ⟨last, hout, -⟩ | ⟨-, -, -, -, hout⟩ := h.outputNames_cases <;> simp [hout]

/-- The steps of what is written are those of the site and then the output names. -/
theorem components_destPath (h : f.Stands dirs file) (hclimb : ¬ f.ClimbsOut) :
    f.destPath.components = f.site.stack.reverse ++ f.outputNames.map .name := by
  have hstack := h.stack_site_join hclimb
  rw [destPath, Path.components_normalize (by simp [hstack, h.outputNames_ne_nil]), hstack,
    List.reverse_append, List.reverse_reverse]

/-- A file is read from below its root. -/
theorem liesIn_srcPath (h : f.Stands dirs file) : f.srcPath.LiesIn f.root.normalize := by
  rw [srcPath, h.srcUri]
  exact Path.liesIn_normalize_join f.root h.legal (by simp)

/-- A file is written below its site, unless it climbs out and there is something
beside the site. -/
theorem liesIn_destPath_iff (h : f.Stands dirs file) :
    f.destPath.LiesIn f.site.normalize ↔ ¬ (f.ClimbsOut ∧ f.site.normalize ≠ ⟨"/"⟩) := by
  rw [destPath, Path.liesIn_normalize_iff, ne_eq, Path.normalize_eq_root_iff]
  by_cases hclimb : f.ClimbsOut
  · have hindex : IsLegalName "index.html" := by decide
    obtain ⟨hdirectoryUrls, hmarkdown, rfl, hup⟩ := h.climbsOut_iff.1 hclimb
    have hnames : publishedNames f.directoryUrls [] file = ["..", "index.html"] := by
      simp [publishedNames, hdirectoryUrls, hmarkdown, hup]
    rw [h.destUri, Path.stack_join_joined _ (h.areParts_publishedNames _)
      (publishedNames_ne_nil _ _ _), hnames, List.foldl_cons, List.foldl_cons, List.foldl_nil,
      pushPiece_dotDot, pushPiece_of_isLegalName hindex, Path.exists_name_cons_pushStep_up_iff]
    simp [hclimb]
  · exact iff_of_true ⟨f.outputNames, h.outputNames_ne_nil, h.stack_site_join hclimb⟩
      fun hout => hclimb hout.1

end Stands
end SourceFile
end DocSite
