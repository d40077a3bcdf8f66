import DocSite.Proofs.Discovery.Filtering
import DocSite.Proofs.Discovery.Sources
import DocSite.Proofs.Discovery.Stack
import DocSite.Proofs.Discovery.Warnings

/-!
# Loops and aliases

Links can make rows of names that never end, and they can make several rows that end in one
directory.  The walk tells the two apart by the places on the way alone.  A row of names
that comes back to a place on its own way closes a loop (`ClosesLoop`): nothing is found
below it, and it is warned of once.  A row that does not is a name of the directory in
which it ends (`IsAlias`), and the files of the directory are found under each of its names.

For the second it has to be known that two names of one directory show the same files.  A
file may be a link, and a path may follow only so many links, so a longer name could lead
to less.  But where the walk comes to something, whatever it looks at leads somewhere; and
what leads somewhere with fewer links left leads to the same place with more
(`FileSystem.follow_unique`).
-/

namespace DocSite

/-! ## What a name leads to -/

theorem Path.isAbsolute_join {p q : Path} (hp : p.text ≠ "") (hq : q.isAbsolute = false) :
    (p.join q).isAbsolute = p.isAbsolute := by
  obtain ⟨first, rest, hchars⟩ : ∃ first rest, p.text.toList = first :: rest :=
    List.exists_cons_of_ne_nil (by simpa using hp)
  rw [join, if_neg (by simp [hq])]
  split <;> simp [isAbsolute, hchars]

namespace FileSystem

variable {fs : FileSystem} {budget left : Nat} {here place : Location} {steps : List String}

/-- With more links left, a way leads to the same place. -/
theorem Way.add_budget (h : Way fs budget here steps left place) (more : Nat) :
    Way fs (budget + more) here steps (left + more) place := by
  induction h with
  | done => exact .done _ _
  | stay hdir hstep _ ih => exact .stay hdir hstep ih
  | up hdir _ ih => exact .up hdir ih
  | down hdir hstep hentry hlink _ ih => exact .down hdir hstep hentry hlink ih
  | link hdir hstep hentry _ ih =>
    rw [Nat.add_right_comm]
    exact .link hdir hstep hentry ih

/-- What some pieces lead to does not depend on how many links are left. -/
theorem follow_unique {other : Nat} {place' : Location} {entry entry' : Entry}
    (h : fs.follow true budget here steps = .ok (.present place entry))
    (h' : fs.follow true other here steps = .ok (.present place' entry')) :
    place = place' ∧ entry = entry' := by
  obtain ⟨left, hway, hentry⟩ := follow_eq_ok_present_iff.1 h
  obtain ⟨left', hway', hentry'⟩ := follow_eq_ok_present_iff.1 h'
  have hmore := follow_eq_ok_present_iff.2 ⟨_, hway.add_budget other, hentry⟩
  have hmore' := follow_eq_ok_present_iff.2 ⟨_, hway'.add_budget budget, hentry'⟩
  rw [Nat.add_comm other budget, hmore] at hmore'
  exact Target.present.inj (Except.ok.inj hmore')

/-- What a name behind the path of a directory leads to is looked up in the directory. -/
theorem exists_follow_of_locate_join {dir : Path} {name : String} (hname : IsLegalName name)
    (hdir : fs.locate dir = .ok (here, .directory)) {entry : Entry}
    (h : fs.locate (dir.join ⟨name⟩) = .ok (place, entry)) :
    ∃ budget, fs.follow true budget here [name] = .ok (.present place entry) := by
  have hrelative : (Path.mk name).isAbsolute = false := by
    simpa using Path.isAbsolute_joined (areParts_singleton hname.1 hname.2.2.2)
  obtain ⟨front, tail, hpieces, htail, hjoin⟩ := dir.exists_pieces_join hrelative
  obtain ⟨hread, ⟨left, hway⟩, -⟩ := locate_eq_ok_iff.1 hdir
  obtain ⟨-, ⟨left', hway'⟩, hentry⟩ := locate_eq_ok_iff.1 h
  have hstart : startOf (dir.join ⟨name⟩) fs.cwd = startOf dir fs.cwd := by
    rw [startOf, startOf, Path.isAbsolute_join hread.ne_empty hrelative]
  rw [hpieces] at hway
  rw [hjoin, hstart, pieces_of_slashFree hname.2.2.2] at hway'
  obtain ⟨between, middle, hfront, hrest⟩ := hway.exists_of_append
  -- behind the names of the directory there is a slash at most, which stays
  obtain rfl : here = middle := by
    rcases htail with rfl | rfl
    · cases hrest
      rfl
    · exact (hrest.eq_of_skip (.inl rfl)).2.2
  refine ⟨between, ?_⟩
  rw [← hfront.follow_append (.inr rfl)]
  exact follow_eq_ok_present_iff.2 ⟨left', hway', hentry⟩

end FileSystem

variable {fs : FileSystem} {exclude dirs : List String} {rules : List ExcludeRule} {docs : Path}
  {place : Location}

/-- Two paths of one directory show the same files, where everything leads somewhere. -/
theorem HasFile.of_locate {dir other : Path} (hdir : fs.locate dir = .ok (place, .directory))
    (hother : fs.locate other = .ok (place, .directory)) {name : String}
    (hlead : Stands fs other name → LeadsOn fs other name) (h : HasFile fs dir name) :
    HasFile fs other name := by
  obtain ⟨hstands, found, entry, hfound, hentry⟩ := h
  have hname := isLegalName_of_stands hstands
  have hstands' : Stands fs other name := by
    obtain ⟨here, hhere, hsome⟩ := hstands
    obtain ⟨rfl, -⟩ := Prod.mk.inj (Except.ok.inj (hhere.symm.trans hdir))
    exact ⟨here, hother, hsome⟩
  obtain ⟨⟨found', entry'⟩, hfound'⟩ := hlead hstands'
  obtain ⟨budget, hfollow⟩ := FileSystem.exists_follow_of_locate_join hname hdir hfound
  obtain ⟨budget', hfollow'⟩ := FileSystem.exists_follow_of_locate_join hname hother hfound'
  obtain ⟨rfl, rfl⟩ := FileSystem.follow_unique hfollow hfollow'
  exact ⟨hstands', found, entry, hfound', hentry⟩

/-! ## Names of directories -/

/-- Names lead from the top to a directory that is walked under them: no rule leaves out a
directory on the way, and no two of these are the same. -/
structure IsAlias (fs : FileSystem) (exclude : List String) (docs : Path) (dirs : List String)
    (place : Location) : Prop where
  directories : ∀ front name rest, dirs = front ++ name :: rest →
    KeepsDirectory fs exclude (docs.down front) front name
  distinct : (passed fs docs dirs).Nodup
  leads : fs.locate (docs.down dirs) = .ok (place, .directory)

/-- A directory that is walked has one in it that no rule leaves out, and which is the
directory itself or one on the way to it. -/
structure ClosesLoop (fs : FileSystem) (exclude : List String) (docs : Path) (dirs : List String)
    (name : String) (place : Location) : Prop where
  isAlias : ∃ here, IsAlias fs exclude docs dirs here
  kept : KeepsDirectory fs exclude (docs.down dirs) dirs name
  leads : fs.locate (docs.down (dirs ++ [name])) = .ok (place, .directory)
  back : ∃ front, front <+: dirs ∧ fs.locate (docs.down front) = .ok (place, .directory)

theorem visits_of_passed {opened : List Location} {dir : Path} {top : List String}
    (hdirs : ∀ front name rest, dirs = front ++ name :: rest →
      KeepsDirectory fs exclude (dir.down front) (top ++ front) name)
    (hdistinct : (passed fs dir dirs).Nodup)
    (hnew : ∀ place ∈ opened, Except.ok (place, .directory) ∉ passed fs dir dirs)
    (hplace : fs.locate (dir.down dirs) = .ok (place, .directory)) :
    Visits fs exclude opened dir top dirs := by
  induction dirs generalizing opened dir top with
  | nil => exact ⟨place, hplace, fun hopen => hnew place hopen (by simpa using hplace.symm)⟩
  | cons name rest ih =>
    have hkept : KeepsDirectory fs exclude dir top name := by
      simpa using hdirs [] name rest rfl
    obtain ⟨here, hdir, -⟩ := hkept.1.1
    rw [passed_cons, hdir] at hdistinct hnew
    obtain ⟨hhere, hdistinct⟩ := List.nodup_cons.1 hdistinct
    refine ⟨here, hdir, fun hopen => hnew here hopen List.mem_cons_self, hkept,
      ih (fun front next others heq => ?_) hdistinct (List.forall_mem_cons.2 ⟨hhere, ?_⟩) hplace⟩
    · simpa using hdirs (name :: front) next others (by rw [heq]; rfl)
    · exact fun other hother hmem => hnew other hother (List.mem_cons_of_mem _ hmem)

theorem IsAlias.visits (h : IsAlias fs exclude docs dirs place) :
    Visits fs exclude [] docs [] dirs :=
  visits_of_passed h.directories h.distinct (fun _ => nofun) h.leads

theorem ClosesLoop.loops {name : String} (h : ClosesLoop fs exclude docs dirs name place) :
    Loops fs exclude [] docs [] (dirs ++ [name]) := by
  obtain ⟨here, hhere⟩ := h.isAlias
  have hleads := h.leads
  rw [Path.down, List.foldl_append] at hleads
  exact loops_concat_iff.2 ⟨hhere.visits, h.kept, place, _, hleads, .inr h.back⟩

/-! ## What is found under names -/

/-- The paths that are found, as rows of names. -/
theorem mem_map_pieces_iff (hrules : exclude.mapM ExcludeRule.ofText = .ok rules)
    {found : List String} (h : (scan fs rules [] docs (joined [])).outcome = .ok found)
    {path : List String} : path ∈ found.map pieces ↔
      ∃ dirs file, path = dirs ++ [file] ∧ IsListed fs exclude docs dirs file := by
  obtain ⟨paths, hlisting, rfl⟩ := exists_isListing_of_scan hrules h
  have hnames : (paths.map joined).map pieces = paths := by
    rw [List.map_map]
    refine (List.map_congr_left fun path hpath => ?_).trans (List.map_id _)
    obtain ⟨dirs, file, rfl, hlisted⟩ := (hlisting.mem_iff path).1 hpath
    exact pieces_joined (by simp) hlisted.areLegal.slashFree
  rw [hnames, hlisting.mem_iff]

/-- Nothing is found below a loop. -/
theorem ClosesLoop.not_prefix {name file : String} {others : List String}
    (h : ClosesLoop fs exclude docs dirs name place)
    (hlisted : IsListed fs exclude docs others file) : ¬ dirs ++ [name] <+: others ++ [file] := by
  intro hbelow
  obtain ⟨front, hfront, hback⟩ := h.back
  obtain heq | hbelow := List.prefix_concat_iff.1 hbelow
  · -- a directory is no file
    obtain ⟨rfl, hname⟩ := List.append_inj' heq rfl
    obtain rfl := (List.cons.inj hname).1
    obtain ⟨-, found, entry, hfound, hentry⟩ := hlisted.file.1
    have hleads := h.leads
    rw [Path.down, List.foldl_append] at hleads
    exact hentry (Prod.mk.inj (Except.ok.inj (hfound.symm.trans hleads))).2
  · -- the place is passed twice
    have hmem : dirs ++ [name] ∈ others.inits ∧ front ∈ others.inits := by
      rw [List.mem_inits, List.mem_inits]
      exact ⟨hbelow, hfront.trans ((List.prefix_append ..).trans hbelow)⟩
    have heq := List.inj_on_of_nodup_map hlisted.distinct hmem.1 hmem.2
      (h.leads.trans hback.symm)
    have hlength := hfront.length_le
    rw [← heq, List.length_append, List.length_singleton] at hlength
    omega

/-- What an alias shows is what any other alias of the same directory shows. -/
theorem IsAlias.mem_found_iff (hrules : exclude.mapM ExcludeRule.ofText = .ok rules)
    {found : List String} (h : (scan fs rules [] docs (joined [])).outcome = .ok found)
    {other : List String} (hdirs : IsAlias fs exclude docs dirs place)
    (hother : IsAlias fs exclude docs other place) {file : String} :
    other ++ [file] ∈ found.map pieces ↔ KeepsFile fs exclude (docs.down dirs) other file := by
  have hall := ((exists_outcome_scan_iff hrules areLegal_nil).1 ⟨found, h⟩).2
  have hsame : ∀ name, HasFile fs (docs.down other) name ↔ HasFile fs (docs.down dirs) name :=
    fun name => ⟨.of_locate hother.leads hdirs.leads (hall dirs hdirs.visits name),
      .of_locate hdirs.leads hother.leads (hall other hother.visits name)⟩
  have hkeeps : KeepsFile fs exclude (docs.down other) other file ↔
      KeepsFile fs exclude (docs.down dirs) other file := by
    simp only [KeepsFile, hsame]
  rw [mem_map_pieces_iff hrules h, ← hkeeps]
  constructor
  · rintro ⟨_, _, heq, hlisted⟩
    obtain ⟨rfl, hfile⟩ := List.append_inj' heq rfl
    obtain rfl := (List.cons.inj hfile).1
    exact hlisted.file
  · exact fun hkept => ⟨other, file, rfl, isListed_iff_visits.2 ⟨hother.visits, hkept⟩⟩

/-! ## What is warned of about a directory -/

/-- Whether a report is about a directory, as its path is written. -/
def Event.isAbout (dir : Path) : Event → Bool
  | directoryLoop other _ | readmeSkipped other => other = dir
  | _ => false

/-- Going down by other names leads to another path. -/
theorem Path.down_injective {dir : Path} {names others : List String} (h : AreLegal names)
    (h' : AreLegal others) (heq : dir.down names = dir.down others) : names = others := by
  have hdown : ∀ {names : List String}, AreLegal names → names ≠ [] → dir.down names ≠ dir := by
    intro names hnames hne hdir
    rw [down_eq_join dir hnames hne] at hdir
    obtain ⟨front, tail, hpieces, htail, hjoin⟩ :=
      dir.exists_pieces_join (isAbsolute_joined hnames.areParts)
    rw [hdir, hpieces, pieces_joined hne hnames.slashFree] at hjoin
    obtain rfl := List.append_cancel_left hjoin
    rcases htail with rfl | rfl
    · exact hne rfl
    · exact (hnames "" (by simp)).1 rfl
  by_cases hne : names = [] <;> by_cases hne' : others = []
  · rw [hne, hne']
  · exact absurd (by rw [← heq, hne, down_nil]) (hdown h' hne')
  · exact absurd (by rw [heq, hne', down_nil]) (hdown h hne)
  · obtain ⟨front, hfront⟩ := dir.exists_text_join
    rw [down_eq_join dir h hne, down_eq_join dir h' hne'] at heq
    have htext := congrArg Path.text heq
    rw [hfront _ (isAbsolute_joined h.areParts), hfront _ (isAbsolute_joined h'.areParts),
      String.append_right_inj] at htext
    exact joined_inj h h' hne hne' htext

theorem Loops.areLegal (h : Loops fs exclude [] docs [] dirs) : AreLegal dirs := by
  obtain rfl | ⟨front, name, rfl⟩ := List.eq_nil_or_concat' dirs
  · exact areLegal_nil
  · obtain ⟨hvisit, hkept, -⟩ := loops_concat_iff.1 h
    exact hvisit.areLegal.append_singleton (isLegalName_of_stands hkept.1.1)

theorem Warns.areLegal {e : Event} (h : Warns fs exclude [] docs [] dirs e) : AreLegal dirs := by
  rcases h with ⟨hvisit, -⟩ | ⟨hloop, -⟩
  · exact hvisit.areLegal
  · exact hloop.areLegal

theorem Warns.isAbout {e : Event} (h : Warns fs exclude [] docs [] dirs e) :
    e.isAbout (docs.down dirs) = true := by
  rcases h with ⟨-, -, rfl⟩ | ⟨-, _, _, -, rfl⟩ <;> exact decide_eq_true rfl

/-- A report is about one directory. -/
theorem Event.eq_of_isAbout {e : Event} {dir other : Path} (h : e.isAbout dir = true)
    (h' : e.isAbout other = true) : dir = other := by
  cases e with
  | directoryLoop | readmeSkipped =>
    exact (of_decide_eq_true h).symm.trans (of_decide_eq_true h')
  | _ => exact absurd h Bool.false_ne_true

/-- The walk does not walk where it closes a loop. -/
theorem Loops.not_visits {opened : List Location} {dir : Path} {top : List String}
    (h : Loops fs exclude opened dir top dirs) : ¬ Visits fs exclude opened dir top dirs := by
  induction dirs generalizing opened dir top with
  | nil =>
    rintro ⟨place, hplace, hnew⟩
    obtain ⟨other, _, hother, hopen⟩ := h
    obtain ⟨rfl, -⟩ := Prod.mk.inj (Except.ok.inj (hplace.symm.trans hother))
    exact hnew hopen
  | cons name rest ih =>
    rintro ⟨place, hplace, -, -, hvisit⟩
    obtain ⟨other, hother, -, -, hloop⟩ := h
    obtain ⟨rfl, -⟩ := Prod.mk.inj (Except.ok.inj (hplace.symm.trans hother))
    exact ih hloop hvisit

/-- **A loop is warned of once**, and about the directory nothing else is warned of. -/
theorem ClosesLoop.warnings_filter (hrules : exclude.mapM ExcludeRule.ofText = .ok rules)
    {found : List String} (h : (scan fs rules [] docs (joined [])).outcome = .ok found)
    {name : String} (hloop : ClosesLoop fs exclude docs dirs name place) :
    (scan fs rules [] docs (joined [])).warnings.filter
        (Event.isAbout (docs.down (dirs ++ [name]))) =
      [.directoryLoop (docs.down (dirs ++ [name])) (FileSystem.canonicalPath place)] := by
  obtain ⟨warned, hwarned⟩ := exists_isWarned_of_outcome_scan hrules areLegal_nil h
  have hmem : ∀ w, w ∈ warned.filter (fun w => w.2.isAbout (docs.down (dirs ++ [name]))) ↔
      w = (dirs ++ [name],
        .directoryLoop (docs.down (dirs ++ [name])) (FileSystem.canonicalPath place)) := by
    rintro ⟨others, e⟩
    rw [List.mem_filter, hwarned.mem_iff, Prod.mk.injEq]
    constructor
    · rintro ⟨hwarns, habout⟩
      obtain rfl := Path.down_injective hwarns.areLegal hloop.loops.areLegal
        (Event.eq_of_isAbout hwarns.isAbout habout)
      rcases hwarns with ⟨hvisit, -⟩ | ⟨-, other, _, hother, rfl⟩
      · exact absurd hvisit hloop.loops.not_visits
      · obtain ⟨rfl, -⟩ := Prod.mk.inj (Except.ok.inj (hother.symm.trans hloop.leads))
        exact ⟨rfl, rfl⟩
    · rintro ⟨rfl, rfl⟩
      have hwarns : Warns fs exclude [] docs [] (dirs ++ [name])
          (.directoryLoop (docs.down (dirs ++ [name])) (FileSystem.canonicalPath place)) :=
        .inr ⟨hloop.loops, place, _, hloop.leads, rfl⟩
      exact ⟨hwarns, hwarns.isAbout⟩
  have hone : warned.filter (fun w => w.2.isAbout (docs.down (dirs ++ [name]))) = [_] :=
    List.perm_singleton.1 ((List.perm_ext_iff_of_nodup (hwarned.distinct.filter _)
      (List.nodup_singleton _)).2 fun w => (hmem w).trans List.mem_singleton.symm)
  rw [hwarned.reports_eq, List.filter_map]
  exact congrArg (List.map Prod.snd) hone

/-! ## The walk comes to an end -/

/-- **The walk comes to an end**, whatever the links do.  On one stack it comes to the answer
of `scan`, with the same reports and with one trail, as soon as it may go deeper than there
are directories.  At every call and after every change the stack holds different places, all
of them directories, so it is never longer than there are directories; every walk that has
come back with an answer left the stack as it was; and a directory that is on the stack has
no files and one report.  If something is found, nothing of it lies below a directory that
closes a loop, and each of these is warned of once; but under every alias of a directory
stand the files that the directory shows under any of them. -/
theorem exists_run_scanOnStack (fs : FileSystem) (docs : Path)
    (hrules : exclude.mapM ExcludeRule.ofText = .ok rules) :
    ∃ trail, (∀ depth, fs.directories.length < depth →
        (scanOnStack fs rules depth docs "").run.run .start =
          some ((scan fs rules [] docs "").outcome, trail)) ∧
      trail.events = (scan fs rules [] docs "").run.events ∧
      (∀ stack ∈ trail.held, stack.Nodup ∧ (∀ place ∈ stack, fs.get? place = some .directory) ∧
        stack.length ≤ fs.directories.toFinset.card) ∧
      (∀ before after, (before, after) ∈ trail.returns → after = before) ∧
      (∀ depth t dir fromTop place entry, fs.locate dir = .ok (place, entry) → place ∈ t.stack →
        ∃ t', (scanOnStack fs rules (depth + 1) dir fromTop).run.run t = some (.ok [], t') ∧
          t'.stack = t.stack ∧
          t'.events = t.events ++ [.directoryLoop dir (FileSystem.canonicalPath place)]) ∧
      ∀ found, (scan fs rules [] docs "").outcome = .ok found → trail.stack = [] ∧
        (∀ dirs name place, ClosesLoop fs exclude docs dirs name place →
          (∀ path ∈ found.map pieces, ¬ dirs ++ [name] <+: path) ∧
          (trail.events.filter Event.isWarning).filter
              (Event.isAbout (docs.down (dirs ++ [name]))) =
            [.directoryLoop (docs.down (dirs ++ [name])) (FileSystem.canonicalPath place)]) ∧
        ∀ dirs other place, IsAlias fs exclude docs dirs place →
          IsAlias fs exclude docs other place → ∀ file,
            other ++ [file] ∈ found.map pieces ↔
              KeepsFile fs exclude (docs.down dirs) other file := by
  have hdepth : (unopened fs []).length < fs.directories.length + 1 :=
    Nat.lt_succ_of_le (List.length_filter_le _ _)
  obtain ⟨trail, hrun, hevents, hsound, hstack⟩ :=
    does_scanOnStack .nil hdepth .start rfl Trail.isSound_start
  refine ⟨trail, fun depth hdeep => run_scanOnStack_of_le hdeep hrun, hevents,
    fun stack hheld => ?_, hsound.returns, ?_, fun found hfound => ?_⟩
  · have hstack := hsound.held stack hheld
    exact ⟨hstack.distinct, hstack.directory, hstack.length_le⟩
  · intro depth t dir fromTop place entry hdir hopen
    exact ⟨_, run_scanOnStack_of_mem hdir hopen depth, rfl, rfl⟩
  · rw [hevents]
    refine ⟨hstack found hfound, fun dirs name place hloop => ⟨?_, ?_⟩, ?_⟩
    · intro path hpath
      obtain ⟨others, file, rfl, hlisted⟩ := (mem_map_pieces_iff hrules hfound).1 hpath
      exact hloop.not_prefix hlisted
    · exact hloop.warnings_filter hrules hfound
    · exact fun dirs other place hdirs hother file => hdirs.mem_found_iff hrules hfound hother

theorem keepsDirectory_of_locate {dir : Path} {top : List String} {name : String}
    {here : Location} (hdir : fs.locate dir = .ok (here, .directory))
    (hstands : (fs.get? (here ++ [name])).isSome)
    (hname : fs.locate (dir.join ⟨name⟩) = .ok (place, .directory)) :
    KeepsDirectory fs [] dir top name :=
  ⟨⟨⟨here, hdir, hstands⟩, place, hname⟩, not_isLeftOut_nil⟩

/-- The directory has two names, and each leads back to the top. -/
theorem closesLoop_aliasTree {name : String} (hname : name ∈ ["shared", "linked"]) :
    IsAlias aliasTree [] ⟨"/docs"⟩ [name] ["docs", "shared"] ∧
      ClosesLoop aliasTree [] ⟨"/docs"⟩ [name] "up" ["docs"] := by
  obtain ⟨hdocs, -, hbelow⟩ := locate_aliasTree
  obtain ⟨hdir, -, hup⟩ := hbelow name hname
  have hstands : (aliasTree.get? (["docs"] ++ [name])).isSome := by
    rcases List.mem_pair.1 hname with rfl | rfl <;> decide
  have halias : IsAlias aliasTree [] ⟨"/docs"⟩ [name] ["docs", "shared"] := {
    directories := by
      rintro front other rest heq
      obtain ⟨rfl, hother⟩ | ⟨-, hnil⟩ := List.singleton_eq_append_iff.1 heq
      · obtain ⟨rfl, -⟩ := List.cons.inj hother
        exact keepsDirectory_of_locate hdocs hstands hdir
      · cases hnil
    distinct := by
      rw [passed_cons, passed_nil, hdocs, hdir]
      decide
    leads := hdir }
  exact ⟨halias, {
    isAlias := ⟨_, halias⟩
    kept := keepsDirectory_of_locate hdir (by decide) hup
    leads := hup
    back := ⟨[], List.nil_prefix, hdocs⟩ }⟩

/-- The walk comes back from both loops, warns of both, and finds the page twice. -/
theorem exists_run_scanOnStack_aliasTree : ∃ trail,
    (∀ depth, 3 < depth → (scanOnStack aliasTree [] depth ⟨"/docs"⟩ "").run.run .start =
        some (.ok ["index.md", "linked/page.md", "shared/page.md"], trail)) ∧
      trail.stack = [] ∧ (∀ stack ∈ trail.held, stack.Nodup ∧ stack.length ≤ 3) ∧
      ∀ name ∈ ["shared", "linked"],
        (trail.events.filter Event.isWarning).filter
            (Event.isAbout ((Path.mk "/docs").down [name, "up"])) =
          [.directoryLoop ((Path.mk "/docs").down [name, "up"]) ⟨"/docs"⟩] ∧
        KeepsFile aliasTree [] ((Path.mk "/docs").down ["shared"]) [name] "page.md" := by
  have hnone : ([] : List String).mapM ExcludeRule.ofText = .ok [] := rfl
  obtain ⟨trail, hrun, -, hheld, -, -, hfound⟩ :=
    exists_run_scanOnStack aliasTree ⟨"/docs"⟩ hnone
  obtain ⟨hstack, hloops, haliases⟩ := hfound _ outcome_scan_aliasTree
  rw [outcome_scan_aliasTree] at hrun
  refine ⟨trail, hrun, hstack, fun stack hstack => ?_, fun name hname => ⟨?_, ?_⟩⟩
  · obtain ⟨hdistinct, -, hlength⟩ := hheld stack hstack
    exact ⟨hdistinct, hlength⟩
  · exact (hloops _ _ _ (closesLoop_aliasTree hname).2).2
  · refine (haliases _ _ _ (closesLoop_aliasTree (by simp)).1 (closesLoop_aliasTree hname).1 _).1 ?_
    rcases List.mem_pair.1 hname with rfl | rfl <;> decide +kernel

end DocSite
