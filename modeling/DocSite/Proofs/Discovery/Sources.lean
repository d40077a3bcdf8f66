import DocSite.FileSystem.Operations
import DocSite.Proofs.Discovery.Places
import DocSite.Proofs.FileSystem.Detours

/-!
# Reading a file from where it was found

The walk looks at a file under the directory of documents as it was written, with every
`..` in it, and later the file is read from the normal form of the same path.  A step up
may be the way to another place when a link stands before it, so these can be two files,
or one of them none at all (`exists_discovered_elsewhere`).

In a directory that is written without such a step, what is read is what was found,
whatever links there are besides (`locate_srcPath_of_discover`).
-/

namespace DocSite

variable {fs : FileSystem} {exclude : List String} {docs site : Path} {directoryUrls : Bool}
  {c : Catalog}

/-- Going down by names is joining the names. -/
theorem Path.down_eq_join (dir : Path) {names : List String} (h : AreLegal names)
    (hne : names ≠ []) : dir.down names = dir.join ⟨joined names⟩ := by
  induction names using List.reverseRecOn with
  | nil => exact absurd rfl hne
  | append_singleton front name ih =>
    have hfront : AreLegal front := fun other hother => h other (List.mem_append_left _ hother)
    have hname : IsLegalName name := h name (by simp)
    rw [down, List.foldl_append, List.foldl_cons, List.foldl_nil, ← down]
    rcases eq_or_ne front [] with rfl | hfrontNe
    · rw [down_nil, List.nil_append, joined_singleton]
    · rw [ih hfront hfrontNe, join_joined_join dir hfront.areParts hfrontNe hname.1 hname.2.2.2]

/-- A file that is found is a file. -/
theorem IsListed.exists_locate {dirs : List String} {file : String}
    (h : IsListed fs exclude docs dirs file) : ∃ place content mtime,
      fs.locate (docs.join ⟨joined (dirs ++ [file])⟩) = .ok (place, .file content mtime) := by
  obtain ⟨-, place, entry, hplace, hentry⟩ := h.file.1
  have hdown : (docs.down dirs).join ⟨file⟩ = docs.join ⟨joined (dirs ++ [file])⟩ := by
    rw [← Path.down_eq_join docs h.areLegal (by simp), Path.down, Path.down, List.foldl_append]
    rfl
  rw [hdown] at hplace
  cases entry with
  | file content mtime => exact ⟨place, content, mtime, hplace⟩
  | directory => exact absurd rfl hentry
  | link text => exact absurd hplace (FileSystem.locate_ne_link text)

/-- A file that is found is read from where it was found, if no step up in the directory
of documents takes back a link. -/
theorem IsListed.locate_srcPath {f : SourceFile} {dirs : List String} {file : String}
    (h : IsListed fs exclude f.root dirs file) (hstands : f.Stands dirs file)
    (hback : fs.TakesBackNoLink f.root) : ∃ place content mtime,
      fs.locate (f.root.join ⟨f.srcUri⟩) = .ok (place, .file content mtime) ∧
        fs.locate f.srcPath = .ok (place, .file content mtime) := by
  obtain ⟨place, content, mtime, hplace⟩ := h.exists_locate
  rw [← hstands.srcUri] at hplace
  refine ⟨place, content, mtime, hplace, ?_⟩
  rw [SourceFile.srcPath]
  refine FileSystem.locate_normalize hplace ?_
  rw [hstands.srcUri]
  exact hback.join_joined hstands.legal (by simp)

/-- **What discovery finds is read from where it was found**, if no step up in the
directory of documents takes back a link: reading the file and copying it come to what
was found.  (A copy to a name of the file itself empties the file before it is read.) -/
theorem locate_srcPath_of_discover
    (h : (Catalog.discover fs docs site directoryUrls exclude).outcome = .ok c)
    (hback : fs.TakesBackNoLink docs) : ∀ f ∈ c.files, ∃ place content mtime,
      fs.locate (docs.join ⟨f.srcUri⟩) = .ok (place, .file content mtime) ∧
        fs.locate f.srcPath = .ok (place, .file content mtime) ∧
        fs.readFile f.srcPath = .ok content ∧
        ∀ target, fs.copyFile f.srcPath target =
          fs.writeFile target (if fs.isOneFile f.srcPath target then .empty else content) := by
  intro f hf
  obtain ⟨dirs, file, hlisted, hstands, rfl, -, -⟩ := exists_isListed_of_discover h hf
  obtain ⟨place, content, mtime, hplace, hsource⟩ := hlisted.locate_srcPath hstands hback
  refine ⟨place, content, mtime, hplace, hsource, ?_, FileSystem.copyFile_of_locate hsource⟩
  rw [FileSystem.readFile, hsource]
  rfl

/-! ## A link before a step up -/

/-- A directory of documents that lies beside the directory to which a link leads. -/
def detourTree : FileSystem where
  entries := [(["real"], .directory), (["real", "sub"], .directory), (["real", "docs"], .directory),
    (["real", "docs", "logo.png"], .file ⟨#[]⟩ 0), (["link"], .link "real/sub")]
  cwd := []
  clock := 0
  distinct := by decide
  grounded := by decide
  legal := by decide

theorem exists_discover_detourTree
    (hdocs : detourTree.locate docs = .ok (["real", "docs"], .directory))
    (hlogo : detourTree.locate (docs.join ⟨"logo.png"⟩) =
      .ok (["real", "docs", "logo.png"], .file ⟨#[]⟩ 0)) :
    ∃ c, (Catalog.discover detourTree docs ⟨"/site"⟩ true []).outcome = .ok c ∧
      c.files = [.ofPath ⟨"logo.png"⟩ docs ⟨"/site"⟩ true] := by
  refine exists_discover_of_files hdocs (by decide +kernel) (fun name hname => ?_)
    (List.pairwise_singleton _ "logo.png") (by decide) _ _
  obtain rfl := List.mem_singleton.1 hname
  exact ⟨_, _, _, hlogo⟩

theorem way_detourTree : detourTree.Way FileSystem.linkBudget [] ["", "link", "..", "docs"] 39
    ["real", "docs"] := by
  have htarget : pieces "real/sub" = ["real", "sub"] := by decide +kernel
  refine .stay rfl (.inl rfl) (.link rfl (by decide +kernel) rfl ?_)
  rw [htarget]
  exact .down rfl (by decide +kernel) rfl nofun (.down rfl (by decide +kernel) rfl nofun
    (.up rfl (.down rfl (by decide +kernel) rfl nofun (.done _ _))))

/-- Documents that are reached by way of a link are found, and then are looked for where
there is nothing. -/
theorem exists_discovered_elsewhere : ∃ c,
    (Catalog.discover detourTree ⟨"/link/../docs"⟩ ⟨"/site"⟩ true []).outcome = .ok c ∧
      ∃ f ∈ c.files,
        detourTree.locate ((Path.mk "/link/../docs").join ⟨f.srcUri⟩) =
          .ok (["real", "docs", "logo.png"], .file ⟨#[]⟩ 0) ∧
        f.srcPath = ⟨"/docs/logo.png"⟩ ∧ detourTree.locate f.srcPath = .error .notFound := by
  have hdocs : detourTree.locate ⟨"/link/../docs"⟩ = .ok (["real", "docs"], .directory) := by
    have hpieces : pieces (Path.mk "/link/../docs").text = ["", "link", "..", "docs"] := by
      decide +kernel
    refine FileSystem.locate_eq_ok_iff.2
      ⟨⟨by decide +kernel, by decide +kernel, by decide +kernel⟩, ⟨39, ?_⟩, rfl⟩
    rw [hpieces]
    exact way_detourTree
  have hlogo : detourTree.locate ((Path.mk "/link/../docs").join ⟨"logo.png"⟩) =
      .ok (["real", "docs", "logo.png"], .file ⟨#[]⟩ 0) := by
    have hpieces : pieces ((Path.mk "/link/../docs").join ⟨"logo.png"⟩).text =
        ["", "link", "..", "docs"] ++ ["logo.png"] := by
      decide +kernel
    refine FileSystem.locate_eq_ok_iff.2
      ⟨⟨by decide +kernel, by decide +kernel, by decide +kernel⟩, ⟨39, ?_⟩, rfl⟩
    rw [hpieces]
    exact way_detourTree.append (.down rfl (by decide +kernel) rfl nofun (.done _ _))
  obtain ⟨c, hdiscover, hfiles⟩ := exists_discover_detourTree hdocs hlogo
  have hfile : SourceFile.ofPath ⟨"logo.png"⟩ ⟨"/link/../docs"⟩ ⟨"/site"⟩ true ∈ c.files := by
    rw [hfiles]
    exact List.mem_singleton_self _
  have hpath : (SourceFile.ofPath ⟨"logo.png"⟩ ⟨"/link/../docs"⟩ ⟨"/site"⟩ true).srcPath =
      ⟨"/docs/logo.png"⟩ := by
    decide +kernel
  have huri : (SourceFile.ofPath ⟨"logo.png"⟩ ⟨"/link/../docs"⟩ ⟨"/site"⟩ true).srcUri =
      "logo.png" := by
    decide +kernel
  refine ⟨c, hdiscover, _, hfile, ?_, hpath, ?_⟩
  · rw [huri]
    exact hlogo
  · rw [hpath]
    exact FileSystem.locate_eq_error_of_follow [] ["", "docs", "logo.png"]
      ⟨by decide +kernel, by decide +kernel, by decide +kernel⟩ (by decide +kernel) (by cbv)

/-- A step up behind a directory is harmless. -/
theorem takesBackNoLink_detourTree : detourTree.TakesBackNoLink ⟨"/real/sub/../docs"⟩ := by
  have hpieces : pieces (Path.mk "/real/sub/../docs").text = ["", "real", "sub", "..", "docs"] := by
    decide +kernel
  have hsub : detourTree.resolve false (Path.mk (joined ["", "real", "sub"])).normalize =
      .ok (.present ["real", "sub"] .directory) := by
    have hread : FileSystem.IsReadable (Path.mk (joined ["", "real", "sub"])).normalize :=
      ⟨by decide +kernel, by decide +kernel, by decide +kernel⟩
    have hsteps : pieces (Path.mk (joined ["", "real", "sub"])).normalize.text =
        ["", "real", "sub"] := by
      decide +kernel
    have hstart : FileSystem.startOf (Path.mk (joined ["", "real", "sub"])).normalize
        detourTree.cwd = [] := by
      decide +kernel
    rw [FileSystem.resolve_of_isReadable hread, hsteps, hstart]
    cbv
  intro front back heq place target
  rw [hpieces] at heq
  obtain rfl : front = ["", "real", "sub"] := by
    rcases front with _ | ⟨first, _ | ⟨second, _ | ⟨third, _ | ⟨fourth, _ | ⟨fifth, front⟩⟩⟩⟩⟩ <;>
      simp_all
  rw [hsub]
  simp

theorem exists_locate_srcPath_detourTree : ∃ c,
    (Catalog.discover detourTree ⟨"/real/sub/../docs"⟩ ⟨"/site"⟩ true []).outcome = .ok c ∧
      ∃ f ∈ c.files, f.srcPath = ⟨"/real/docs/logo.png"⟩ ∧ ∃ place content mtime,
        detourTree.locate f.srcPath = .ok (place, .file content mtime) := by
  have hlogo : detourTree.locate ((Path.mk "/real/sub/../docs").join ⟨"logo.png"⟩) =
      .ok (["real", "docs", "logo.png"], .file ⟨#[]⟩ 0) :=
    FileSystem.locate_eq_ok_of_follow [] ["", "real", "sub", "..", "docs", "logo.png"]
      (by decide +kernel) (by cbv)
  obtain ⟨c, hdiscover, hfiles⟩ := exists_discover_detourTree
    (FileSystem.locate_eq_ok_of_follow [] ["", "real", "sub", "..", "docs"] (by decide +kernel)
      (by cbv)) hlogo
  have hfile : SourceFile.ofPath ⟨"logo.png"⟩ ⟨"/real/sub/../docs"⟩ ⟨"/site"⟩ true ∈ c.files := by
    rw [hfiles]
    exact List.mem_singleton_self _
  obtain ⟨place, content, mtime, -, hsource, -⟩ :=
    locate_srcPath_of_discover hdiscover takesBackNoLink_detourTree _ hfile
  exact ⟨c, hdiscover, _, hfile, by decide +kernel, place, content, mtime, hsource⟩

end DocSite
