import Mathlib
import DocSite.CommandLine.Response
import DocSite.Proofs.Discovery.IndexFiles
import DocSite.Proofs.Discovery.Warnings
import DocSite.Proofs.FileSystem.Way
import DocSite.Proofs.Nav.Warnings
import DocSite.Proofs.Settings.Loading

/-!
# When a strict run fails

A strict run fails for its warnings, and these come from two places: from discovery, and from
the navigation, if the command builds one.  Every other step is silent (`Running.IsSilent`):
it may report, but it gives no warning.  And no step but the last one fails for warnings
(`Running.IsLenient`), so the end of a run is decided by their number when everything else
has gone well (`exists_after_of_execute`).

What is shown of the reports plays no part in this: neither the steps nor their number depend
on the filter.
-/

namespace DocSite

/-! ## Copying -/

namespace Copying

variable {α β : Type}

theorem isQuiet_liftExcept (result : Except FileError α) :
    IsQuiet (liftExcept result : Copying α).run := by
  cases result <;> exact fun _ => rfl

theorem isQuiet_report {e : Event} (h : e.isWarning = false) : IsQuiet (report e).run := by
  intro fs
  show (Journal.report e).warnings = []
  rw [Journal.warnings_report, h]
  rfl

theorem isQuiet_bind {x : Copying α} {next : α → Copying β} (h : IsQuiet x.run)
    (hnext : ∀ a, IsQuiet (next a).run) : IsQuiet (x >>= next).run := by
  rw [ExceptT.run_bind]
  refine h.bind fun result => ?_
  cases result with
  | ok a => exact hnext a
  | error refusal => exact isQuiet_pure _

theorem isQuiet_forM {f : α → Copying PUnit} (h : ∀ a, IsQuiet (f a).run) (as : List α) :
    IsQuiet (as.forM f).run := by
  induction as with
  | nil => exact isQuiet_pure _
  | cons a rest ih => exact isQuiet_bind (h a) fun _ => ih

theorem isQuiet_ensureParent (path : Path) : IsQuiet (ensureParent path).run := by
  rw [ensureParent]
  split
  · exact isQuiet_pure _
  · exact isQuiet_bind (fun _ => rfl) fun fs =>
      isQuiet_bind (fun _ => rfl) fun _ => isQuiet_liftExcept _

theorem isQuiet_copyTo (source target : Path) : IsQuiet (copyTo source target).run := by
  rw [copyTo]
  refine isQuiet_bind (isQuiet_ensureParent target) fun _ =>
    isQuiet_bind (fun _ => rfl) fun fs => ?_
  dsimp only
  split
  · exact isQuiet_pure _
  · exact isQuiet_bind (isQuiet_liftExcept _) fun copied => fun _ => rfl

theorem isQuiet_publish (onlyModified : Bool) (f : SourceFile) :
    IsQuiet (f.publish onlyModified).run := by
  have hneeded : ∀ needed : Bool, IsQuiet (do
      if needed then
        Copying.report (.copying f.srcUri)
        copyTo f.srcPath f.destPath
      else Copying.report (.copyUpToDate f.srcUri) : Copying Unit).run := by
    intro needed
    split
    · exact isQuiet_bind (isQuiet_report rfl) fun _ => isQuiet_copyTo _ _
    · exact isQuiet_report rfl
  rw [SourceFile.publish]
  split
  · exact isQuiet_bind (fun _ => rfl) fun fs => isQuiet_bind (isQuiet_liftExcept _) hneeded
  · exact isQuiet_bind (isQuiet_pure _) hneeded

/-- Copying gives no warning. -/
theorem isQuiet_publishStatic (onlyModified : Bool) (c : Catalog) :
    IsQuiet (c.publishStatic onlyModified).run :=
  isQuiet_bind (isQuiet_forM (isQuiet_publish onlyModified) _) fun _ => isQuiet_pure _

end Copying

/-! ## Themes -/

theorem warnings_listThemeFiles (fs : FileSystem) (dirs : List Path) :
    (listThemeFiles fs dirs).warnings = [] := by
  rw [listThemeFiles, Journal.warnings_bind, Journal.warnings_mapM]
  · rfl
  · intro dir
    split <;> rfl

namespace Catalog

theorem warnings_addCandidate (fs : FileSystem) (search : ThemeSearch) (filter : ThemeFilter)
    (made : Nat × Catalog) (candidate : String) :
    (addCandidate fs search filter made candidate).warnings = [] := by
  rw [addCandidate]
  split
  · rfl
  · dsimp only
    split
    · rfl
    · split
      · rfl
      · rw [Journal.warnings_bind, warnings_append]
        rfl

/-- Adding the files of themes gives no warning. -/
theorem warnings_addThemeFiles {fs : FileSystem} {search : ThemeSearch} {candidates : List String}
    {c : Catalog} {journal : Journal (Nat × Catalog)}
    (h : c.addThemeFiles fs search candidates = .ok journal) : journal.warnings = [] := by
  obtain ⟨filter, -, h⟩ := bind_eq_ok_iff.1 h
  obtain rfl := Except.ok.inj h
  exact Journal.warnings_foldlM (warnings_addCandidate fs search filter) candidates (0, c)

end Catalog

/-! ## Steps of a run -/

namespace CommandLine

namespace Running

variable {α β : Type}

/-- What a step of a run comes to, and the progress that it makes. -/
def after (x : Running α) (p : Progress) : Except Failure α × Progress :=
  x.run.run p

@[simp] theorem after_pure (a : α) (p : Progress) : (pure a : Running α).after p = (.ok a, p) := rfl

@[simp] theorem after_get (p : Progress) : (get : Running Progress).after p = (.ok p, p) := rfl

@[simp] theorem after_throw (cause : Failure) (p : Progress) :
    (throw cause : Running α).after p = (.error cause, p) := rfl

theorem after_bind (x : Running α) (next : α → Running β) (p : Progress) :
    (x >>= next).after p = match x.after p with
      | (.ok a, q) => (next a).after q
      | (.error cause, q) => (.error cause, q) := by
  show (x.run >>= ExceptT.bindCont fun a => (next a).run).run p = _
  rw [StateT.run_bind, after]
  rcases x.run.run p with ⟨_ | _, _⟩ <;> rfl

theorem after_bind_of_ok {x : Running α} {next : α → Running β} {p q : Progress} {a : α}
    (h : x.after p = (.ok a, q)) : (x >>= next).after p = (next a).after q := by
  rw [after_bind, h]

theorem after_bind_of_error {x : Running α} {next : α → Running β} {p q : Progress}
    {cause : Failure} (h : x.after p = (.error cause, q)) :
    (x >>= next).after p = (.error cause, q) := by
  rw [after_bind, h]

/-- A row of steps comes to its end when each of them does. -/
theorem after_bind_eq_ok_iff {x : Running α} {next : α → Running β} {p q : Progress} {b : β} :
    (x >>= next).after p = (.ok b, q) ↔
      ∃ a mid, x.after p = (.ok a, mid) ∧ (next a).after mid = (.ok b, q) := by
  rw [after_bind]
  rcases x.after p with ⟨_ | a, mid⟩ <;> simp

theorem after_note (answer : Journal α) (p : Progress) : (note answer).after p =
    (.ok answer.value, { p with notices := p.notices ++ answer.events.map .logged }) := rfl

theorem after_allow {ε : Type} (cause : ε → Failure) (result : Except ε α) (p : Progress) :
    (allow cause result).after p = (result.mapError cause, p) := by
  cases result <;> rfl

/-- A step gives no warning. -/
def IsSilent (x : Running α) : Prop :=
  ∀ p, (x.after p).2.warningCount = p.warningCount

/-- A step does not fail for warnings. -/
def IsLenient (x : Running α) : Prop :=
  ∀ p count, (x.after p).1 ≠ .error (.warnings count)

theorem isSilent_pure (a : α) : IsSilent (pure a : Running α) := fun _ => rfl

theorem isLenient_pure (a : α) : IsLenient (pure a : Running α) := by
  intro p count h
  rw [after_pure] at h
  cases h

theorem isSilent_get : IsSilent (get : Running Progress) := fun _ => rfl

theorem isLenient_get : IsLenient (get : Running Progress) := by
  intro p count h
  rw [after_get] at h
  cases h

theorem IsSilent.bind {x : Running α} {next : α → Running β} (h : IsSilent x)
    (hnext : ∀ a, IsSilent (next a)) : IsSilent (x >>= next) := by
  intro p
  have hfirst := h p
  rw [after_bind]
  rcases hx : x.after p with ⟨_ | a, mid⟩
  · rw [hx] at hfirst
    exact hfirst
  · rw [hx] at hfirst
    exact (hnext a mid).trans hfirst

theorem IsLenient.bind {x : Running α} {next : α → Running β} (h : IsLenient x)
    (hnext : ∀ a, IsLenient (next a)) : IsLenient (x >>= next) := by
  intro p count
  have hfirst := h p count
  rw [after_bind]
  rcases hx : x.after p with ⟨cause | a, mid⟩
  · rw [hx] at hfirst
    exact fun heq => hfirst (by simpa using heq)
  · exact hnext a mid count

/-- What is noted counts as far as it warns. -/
theorem warningCount_note (answer : Journal α) (p : Progress) :
    ((note answer).after p).2.warningCount = p.warningCount + answer.warnings.length := by
  rw [after_note, Progress.warningCount, List.countP_append, List.countP_map, Journal.warnings,
    ← List.countP_eq_length_filter]
  rfl

theorem isSilent_note {answer : Journal α} (h : answer.warnings = []) :
    IsSilent (note answer) := by
  intro p
  rw [warningCount_note, h]
  rfl

theorem isLenient_note (answer : Journal α) : IsLenient (note answer) := by
  intro p count h
  rw [after_note] at h
  cases h

theorem isSilent_allow {ε : Type} (cause : ε → Failure) (result : Except ε α) :
    IsSilent (allow cause result) := by
  intro p
  rw [after_allow]

theorem after_allow_eq_ok_iff {ε : Type} {cause : ε → Failure} {result : Except ε α} {a : α}
    {p q : Progress} : (allow cause result).after p = (.ok a, q) ↔ result = .ok a ∧ p = q := by
  rw [after_allow, Prod.mk.injEq]
  cases result <;> simp [Except.mapError]

/-- What follows something that may be refused is silent when it is after an answer. -/
theorem isSilent_allow_bind {ε : Type} {cause : ε → Failure} {result : Except ε α}
    {next : α → Running β} (h : ∀ a, result = .ok a → IsSilent (next a)) :
    IsSilent (allow cause result >>= next) := by
  intro p
  rw [after_bind, after_allow]
  cases result with
  | ok a => exact h a rfl p
  | error e => rfl

theorem isLenient_allow {ε : Type} {cause : ε → Failure}
    (hcause : ∀ e count, cause e ≠ .warnings count) (result : Except ε α) :
    IsLenient (allow cause result) := by
  intro p count h
  rw [after_allow] at h
  cases result with
  | ok a => cases h
  | error e => exact hcause e count (Except.error.inj h)

theorem isSilent_printLines (lines : List String) : IsSilent (printLines lines) := fun _ => rfl

theorem isLenient_printLines (lines : List String) : IsLenient (printLines lines) :=
  fun _ _ h => nomatch h

theorem isSilent_tell (text : String) : IsSilent (tell text) := by
  intro p
  show (Progress.warningCount { p with notices := p.notices ++ [.told text] }) = _
  rw [Progress.warningCount, List.countP_append]
  rfl

theorem isLenient_tell (text : String) : IsLenient (tell text) :=
  fun _ _ h => nomatch h

theorem isLenient_finding (found : Finding α) : IsLenient (finding found) := by
  refine (isLenient_note _).bind fun result => isLenient_allow ?_ result
  intro cause count h
  cases h

/-- A finding that comes to something in a run adds its warnings. -/
theorem of_after_finding {found : Finding α} {a : α} {p q : Progress}
    (h : (finding found).after p = (.ok a, q)) :
    found.outcome = .ok a ∧ q.warningCount = p.warningCount + found.warnings.length := by
  obtain ⟨result, mid, hnote, hallow⟩ := after_bind_eq_ok_iff.1 h
  obtain ⟨rfl, rfl⟩ := after_allow_eq_ok_iff.1 hallow
  have hcount := warningCount_note found.run p
  rw [hnote] at hcount
  rw [after_note, Prod.mk.injEq, Except.ok.injEq] at hnote
  exact ⟨hnote.1, hcount⟩

/-- Copying that gives no warning is a silent step. -/
theorem isSilent_copying {act : Copying α} (h : IsQuiet act.run) : IsSilent (copying act) :=
  isSilent_get.bind fun p => (isSilent_note (h p.fs)).bind fun done =>
    IsSilent.bind (fun _ => rfl) fun _ => isSilent_allow .files done.1

theorem isLenient_copying (act : Copying α) : IsLenient (copying act) := by
  refine isLenient_get.bind fun p => (isLenient_note _).bind fun done =>
    IsLenient.bind (fun _ _ h => nomatch h) fun _ => isLenient_allow ?_ done.1
  intro cause count h
  cases h

end Running

open Running

/-! ## The steps of a run -/

theorem isSilent_addThemes (s : Settings) (c : Catalog) : IsSilent (addThemes s c) := by
  rw [addThemes]
  split
  · exact isSilent_pure c
  · exact isSilent_get.bind fun p =>
      (isSilent_note (warnings_listThemeFiles p.fs s.themeDirs)).bind fun candidates =>
        isSilent_allow_bind fun journal hadding =>
          (isSilent_note (Catalog.warnings_addThemeFiles hadding)).bind fun done =>
            (isSilent_note rfl).bind fun _ => isSilent_pure done.2

theorem isLenient_addThemes (s : Settings) (c : Catalog) : IsLenient (addThemes s c) := by
  rw [addThemes]
  split
  · exact isLenient_pure c
  refine isLenient_get.bind fun p => (isLenient_note _).bind fun candidates =>
    (isLenient_allow ?_ _).bind fun journal => (isLenient_note journal).bind fun added =>
      (isLenient_note _).bind fun _ => isLenient_pure added.2
  intro cause count h
  cases h

theorem isLenient_loadSite (env : Environment) (i : Invocation) : IsLenient (loadSite env i) := by
  refine isLenient_get.bind fun p => (isLenient_allow ?_ _).bind fun s =>
    (isLenient_finding _).bind fun c =>
      (isLenient_addThemes s c).bind fun larger => isLenient_pure _
  intro cause count h
  cases h

/-- A site is loaded with the settings that there are, and what is warned of on the way is what
discovery warns of. -/
theorem exists_of_after_loadSite {env : Environment} {i : Invocation} {p q : Progress} {site : Site}
    (h : (loadSite env i).after p = (.ok site, q)) :
    Settings.load p.fs env i.config (some i.overrides) = .ok site.settings ∧ ∃ c,
      (Catalog.discover p.fs site.settings.docsDir site.settings.siteDir site.settings.directoryUrls
        site.settings.exclude).outcome = .ok c ∧
      q.warningCount = p.warningCount + (Catalog.discover p.fs site.settings.docsDir
        site.settings.siteDir site.settings.directoryUrls
          site.settings.exclude).warnings.length := by
  obtain ⟨_, _, hget, h⟩ := after_bind_eq_ok_iff.1 h
  cases hget
  obtain ⟨s, _, hallow, h⟩ := after_bind_eq_ok_iff.1 h
  obtain ⟨hload, rfl⟩ := after_allow_eq_ok_iff.1 hallow
  obtain ⟨c, mid, hfinding, h⟩ := after_bind_eq_ok_iff.1 h
  obtain ⟨hdiscover, hcount⟩ := of_after_finding hfinding
  obtain ⟨larger, last, hthemes, h⟩ := after_bind_eq_ok_iff.1 h
  cases h
  have hsilent := isSilent_addThemes s c mid
  rw [hthemes] at hsilent
  exact ⟨hload, c, hdiscover, hsilent.trans hcount⟩

theorem isSilent_printFiles (colours : Bool) (site : Site) (json : Bool) :
    IsSilent (printFiles colours site json) := by
  rw [printFiles]
  split
  · exact isSilent_printLines _
  · exact (isSilent_printLines _).bind fun _ => isSilent_tell _

theorem isLenient_printFiles (colours : Bool) (site : Site) (json : Bool) :
    IsLenient (printFiles colours site json) := by
  rw [printFiles]
  split
  · exact isLenient_printLines _
  · exact (isLenient_printLines _).bind fun _ => isLenient_tell _

theorem isSilent_copyFiles (colours : Bool) (site : Site) (onlyModified : Bool) :
    IsSilent (copyFiles colours site onlyModified) :=
  (isSilent_tell _).bind fun _ => (isSilent_tell _).bind fun _ =>
    (isSilent_copying (Copying.isQuiet_publishStatic onlyModified site.catalog)).bind fun _ =>
      isSilent_tell _

theorem isLenient_copyFiles (colours : Bool) (site : Site) (onlyModified : Bool) :
    IsLenient (copyFiles colours site onlyModified) :=
  (isLenient_tell _).bind fun _ => (isLenient_tell _).bind fun _ =>
    (isLenient_copying _).bind fun _ => isLenient_tell _

/-- The links that a command finds broken: those of the navigation that it builds, if it builds
one. -/
def brokenLinks (site : Site) : Command → List Nav.Link
  | .files _ | .copyStatic _ | .nav .spec => []
  | .nav .tree | .nav .json | .nav .pages =>
    match (Nav.build site.settings.nav .ofFile site.catalog).value.1 with
    | .ok nav => nav.brokenLinks
    | .error _ => []

/-- The navigation of a site, as part of a run. -/
def buildNavigation (site : Site) : Running Nav.Navigation := do
  let (result, _) ← note (Nav.build site.settings.nav .ofFile site.catalog)
  allow .nav result

theorem isLenient_buildNavigation (site : Site) : IsLenient (buildNavigation site) := by
  refine (isLenient_note _).bind fun done => isLenient_allow ?_ done.1
  intro cause count h
  cases h

theorem of_after_buildNavigation {site : Site} {p q : Progress} {nav : Nav.Navigation}
    (h : (buildNavigation site).after p = (.ok nav, q)) :
    (Nav.build site.settings.nav .ofFile site.catalog).value.1 = .ok nav ∧
      q.warningCount = p.warningCount + nav.brokenLinks.length := by
  obtain ⟨⟨result, filled⟩, mid, hnote, hallow⟩ := after_bind_eq_ok_iff.1 h
  obtain ⟨rfl, rfl⟩ := after_allow_eq_ok_iff.1 hallow
  have hcount := warningCount_note (Nav.build site.settings.nav .ofFile site.catalog) p
  rw [hnote] at hcount
  rw [after_note, Prod.mk.injEq, Except.ok.injEq] at hnote
  rw [hcount, Nav.warnings_build hnote.1, List.length_map, hnote.1]
  exact ⟨rfl, rfl⟩

/-- What a command does with the site. -/
def carryOut (colours : Bool) (site : Site) : Command → Running Unit
  | .files json => printFiles colours site json
  | .nav view => printNavigation colours site view
  | .copyStatic onlyModified => copyFiles colours site onlyModified

theorem perform_eq (env : Environment) (i : Invocation) : perform env i =
    loadSite env i >>= fun site => carryOut (insistsOnColours env) site i.command >>= fun _ =>
      finish site.settings := by
  rw [perform]
  congr 1
  funext site
  dsimp only
  cases i.command <;> rfl

theorem isLenient_carryOut (colours : Bool) (site : Site) (command : Command) :
    IsLenient (carryOut colours site command) := by
  cases command with
  | files json => exact isLenient_printFiles colours site json
  | copyStatic onlyModified => exact isLenient_copyFiles colours site onlyModified
  | nav view =>
    cases view with
    | spec => exact fun _ _ h => nomatch h
    | tree | json | pages =>
      exact (isLenient_buildNavigation site).bind fun nav => isLenient_printLines _

/-- A command that comes to its end has warned of the links that it finds broken. -/
theorem warningCount_of_after_carryOut {colours : Bool} {site : Site} {command : Command}
    {p q : Progress} (h : (carryOut colours site command).after p = (.ok (), q)) :
    q.warningCount = p.warningCount + (brokenLinks site command).length := by
  have hsilent : ∀ {x : Running Unit}, IsSilent x → x.after p = (.ok (), q) →
      q.warningCount = p.warningCount := fun hx hafter => by
    have hcount := hx p
    rwa [hafter] at hcount
  have hbuilt : ∀ {print : Nav.Navigation → Running Unit}, (∀ nav, IsSilent (print nav)) →
      (buildNavigation site >>= print).after p = (.ok (), q) → ∃ nav,
        (Nav.build site.settings.nav .ofFile site.catalog).value.1 = .ok nav ∧
          q.warningCount = p.warningCount + nav.brokenLinks.length := fun hprint hafter => by
    obtain ⟨nav, mid, hbuild, hafter⟩ := after_bind_eq_ok_iff.1 hafter
    obtain ⟨hnav, hcount⟩ := of_after_buildNavigation hbuild
    have hsame := hprint nav mid
    rw [hafter] at hsame
    exact ⟨nav, hnav, hsame.trans hcount⟩
  cases command with
  | files json => exact hsilent (isSilent_printFiles colours site json) h
  | copyStatic onlyModified => exact hsilent (isSilent_copyFiles colours site onlyModified) h
  | nav view =>
    cases view with
    | spec => exact hsilent (fun _ => rfl) h
    | tree | json | pages =>
      obtain ⟨nav, hnav, hcount⟩ := hbuilt (fun nav => isSilent_printLines _) h
      rw [hcount, brokenLinks, hnav]

theorem after_finish (s : Settings) (p : Progress) : (finish s).after p =
    (if s.strict = true ∧ 0 < p.warningCount then .error (.warnings p.warningCount) else .ok (),
      p) := by
  rw [finish, after_bind, after_get]
  dsimp only
  by_cases h : s.strict = true ∧ 0 < p.warningCount
  · rw [if_pos h, if_pos (by simpa using h), after_throw]
  · rw [if_neg h, if_neg (by simpa using h), after_pure]

/-! ## The end of a run -/

theorem failure_execute (fs : FileSystem) (env : Environment) (i : Invocation) :
    (execute fs env i).failure = match ((perform env i).after ⟨fs, "", []⟩).1 with
      | .ok () => none
      | .error cause => some cause := rfl

/-- A run that has carried out its command fails if its warnings count. -/
theorem failure_execute_of_after {fs : FileSystem} {env : Environment} {i : Invocation}
    {site : Site} {begun done : Progress}
    (hload : (loadSite env i).after ⟨fs, "", []⟩ = (.ok site, begun))
    (hcarry : (carryOut (insistsOnColours env) site i.command).after begun = (.ok (), done)) :
    (execute fs env i).failure = if site.settings.strict = true ∧ 0 < done.warningCount
      then some (.warnings done.warningCount) else none := by
  rw [failure_execute, perform_eq, after_bind_of_ok hload, after_bind_of_ok hcarry, after_finish]
  by_cases hfails : site.settings.strict = true ∧ 0 < done.warningCount
  · rw [if_pos hfails, if_pos hfails]
  · rw [if_neg hfails, if_neg hfails]

/-- A run that meets nothing worse than warnings loads a site, carries out its command, and then
counts. -/
theorem exists_after_of_execute {fs : FileSystem} {env : Environment} {i : Invocation}
    (hruns : ∀ cause ∈ (execute fs env i).failure, ∃ count, cause = .warnings count) :
    ∃ site begun done, (loadSite env i).after ⟨fs, "", []⟩ = (.ok site, begun) ∧
      (carryOut (insistsOnColours env) site i.command).after begun = (.ok (), done) ∧
      (execute fs env i).failure = if site.settings.strict = true ∧ 0 < done.warningCount
        then some (.warnings done.warningCount) else none := by
  rw [failure_execute, perform_eq] at hruns
  rcases hload : (loadSite env i).after ⟨fs, "", []⟩ with ⟨cause | site, begun⟩
  · rw [after_bind_of_error hload] at hruns
    obtain ⟨count, rfl⟩ := hruns cause rfl
    exact absurd (congrArg Prod.fst hload) (isLenient_loadSite env i _ count)
  rw [after_bind_of_ok hload] at hruns
  rcases hcarry : (carryOut (insistsOnColours env) site i.command).after begun with
    ⟨cause | ⟨⟩, done⟩
  · rw [after_bind_of_error hcarry] at hruns
    obtain ⟨count, rfl⟩ := hruns cause rfl
    exact absurd (congrArg Prod.fst hcarry) (isLenient_carryOut _ site i.command begun count)
  exact ⟨site, begun, done, rfl, hcarry, failure_execute_of_after hload hcarry⟩

/-- **When a strict run fails.**  A run that meets nothing worse than warnings ends in a failure
exactly when its settings are strict and there is something to warn of: a visited directory
whose `README.md` is dropped, a directory that is skipped because it is being walked, or a link
of the navigation that the command builds which leads neither out of the site nor to its root.
The failure and the exit code say so, and the failure says how many there are; neither the
verbosity nor the filter for reports is part of what decides. -/
theorem strict_of_respond {fs : FileSystem} {env : Environment} {arguments : List String}
    {i : Invocation} (harguments : Invocation.ofArguments arguments = .ok i)
    (hruns : ∀ cause ∈ (execute fs env i).failure, ∃ count, cause = .warnings count) :
    ∃ site begun, (loadSite env i).after ⟨fs, "", []⟩ = (.ok site, begun) ∧
      Settings.load fs env i.config (some i.overrides) = .ok site.settings ∧
      ∃ dropped loops : List (List String), dropped.Nodup ∧ loops.Nodup ∧
        (∀ dirs, dirs ∈ dropped ↔
          Visits fs site.settings.exclude [] site.settings.docsDir [] dirs ∧
            DropsReadme fs site.settings.exclude (site.settings.docsDir.down dirs) dirs) ∧
        (∀ dirs, dirs ∈ loops ↔
          Loops fs site.settings.exclude [] site.settings.docsDir [] dirs) ∧
        let count := dropped.length + loops.length + (brokenLinks site i.command).length
        ((respond fs env arguments).exitCode =
          if site.settings.strict = true ∧ 0 < count then 1 else 0) ∧
        ((execute fs env i).failure =
          if site.settings.strict = true ∧ 0 < count then some (.warnings count) else none) ∧
        (site.settings.strict = true ∧ 0 < count → ∃ before,
          (respond fs env arguments).remarks = before ++
            (Tone.failure.apply (insistsOnColours env)
              ("Error: " ++ s!"Aborted with {count} warning(s) in strict mode")).splitOn "\n") := by
  obtain ⟨site, begun, done, hload, hcarry, hfailure⟩ := exists_after_of_execute hruns
  obtain ⟨hsettings, c, hdiscover, hbegun⟩ := exists_of_after_loadSite hload
  obtain ⟨dropped, loops, hdistinct, hdistinct', hdropped, hloops, hwarnings⟩ :=
    exists_length_warnings_discover hdiscover
  have hcount : done.warningCount =
      dropped.length + loops.length + (brokenLinks site i.command).length := by
    rw [warningCount_of_after_carryOut hcarry, hbegun, hwarnings]
    exact congrArg (· + _) (Nat.zero_add _)
  rw [hcount] at hfailure
  have hrespond : respond fs env arguments = ⟨(execute fs env i).exitCode,
      (execute fs env i).progress.printed, (execute fs env i).remarks (insistsOnColours env)
        (.ofEnvironment env i.verbose), (execute fs env i).progress.fs⟩ := by
    rw [respond, harguments]
  refine ⟨site, begun, hload, hsettings, dropped, loops, hdistinct, hdistinct', hdropped, hloops,
    ?_, hfailure, fun hfails => ?_⟩
  · rw [hrespond]
    dsimp only
    rw [Outcome.exitCode, hfailure]
    split <;> rfl
  · rw [hrespond]
    dsimp only
    rw [if_pos hfails] at hfailure
    rw [Outcome.remarks, hfailure, List.flatMap_append, Option.toList_some, List.map_singleton,
      List.flatMap_singleton]
    exact ⟨_, rfl⟩

/-! ## A strict run over two index files -/

/-- A site without themes is what discovery finds. -/
theorem exists_after_loadSite {env : Environment} {i : Invocation} {p : Progress} {s : Settings}
    {c : Catalog} (hload : Settings.load p.fs env i.config (some i.overrides) = .ok s)
    (hdiscover : (Catalog.discover p.fs s.docsDir s.siteDir s.directoryUrls s.exclude).outcome =
      .ok c) (hthemes : s.themeDirs = []) : ∃ q, (loadSite env i).after p = (.ok ⟨s, c⟩, q) := by
  have hsettings : (allow Failure.settings
      (Settings.load p.fs env i.config (some i.overrides))).after p = (.ok s, p) :=
    after_allow_eq_ok_iff.2 ⟨hload, rfl⟩
  have hfound : (finding (Catalog.discover p.fs s.docsDir s.siteDir s.directoryUrls
      s.exclude)).after p = (.ok c, _) :=
    after_bind_eq_ok_iff.2 ⟨_, _, after_note _ p, after_allow_eq_ok_iff.2 ⟨hdiscover, rfl⟩⟩
  have hadded : addThemes s c = pure c := by
    rw [addThemes, hthemes]
    rfl
  rw [loadSite, after_bind_of_ok (after_get p), after_bind_of_ok hsettings,
    after_bind_of_ok hfound, hadded]
  exact ⟨_, rfl⟩

/-- What is said about a site by `--strict`. -/
def strictOnly : Overrides := { Overrides.none with strict := some true }

/-- A strict run that prints the files of a site. -/
def strictFiles : Invocation := ⟨none, false, strictOnly, .files false⟩

/-- The settings of a strict run from the root, where there is no configuration file. -/
def strictSettings : Settings :=
  { Settings.defaults ⟨"/"⟩ with docsDir := ⟨"/docs"⟩, siteDir := ⟨"/site"⟩, strict := true }

theorem load_indexTree :
    Settings.load indexTree [] none (some strictOnly) = .ok strictSettings := by
  have hread : FileSystem.IsReadable ⟨"/tome.toml"⟩ :=
    ⟨by decide +kernel, by decide +kernel, by decide +kernel⟩
  have hpieces : pieces (Path.mk "/tome.toml").text = ["", "tome.toml"] := by decide +kernel
  have hfollow : indexTree.follow true FileSystem.linkBudget [] ["", "tome.toml"] =
      .ok (.absent [] "tome.toml") := by
    cbv
  have hresolve : indexTree.resolve true ⟨"/tome.toml"⟩ = .ok (.absent [] "tome.toml") := by
    rw [FileSystem.resolve_of_isReadable hread, hpieces]
    exact hfollow
  have hcandidate : (FileSystem.canonicalPath []).join ⟨Settings.fileName⟩ = ⟨"/tome.toml"⟩ := by
    decide +kernel
  have hfind : Settings.find? indexTree = none := by
    rw [Settings.find?]
    show [(FileSystem.canonicalPath []).join ⟨Settings.fileName⟩].find? indexTree.pathExists = none
    rw [hcandidate, List.find?_singleton, FileSystem.pathExists,
      FileSystem.locate_eq_error_of_resolve hresolve]
    rfl
  have hwritten : Settings.written indexTree none = .ok none := by
    rw [Settings.written, hfind]
  have hdocs : (FileSystem.canonicalPath []).join ⟨"docs"⟩ = ⟨"/docs"⟩ := by decide +kernel
  have hsite : (FileSystem.canonicalPath []).join ⟨"site"⟩ = ⟨"/site"⟩ := by decide +kernel
  rw [Settings.load_eq, hwritten]
  refine Settings.settle_eq_ok_iff.2 ⟨?_, by decide +kernel⟩
  rw [strictSettings, ← hdocs, ← hsite]
  rfl

/-- The rules that hold when none are given. -/
def defaultRules : List ExcludeRule :=
  dotRule ++ [⟨⟨"templates".toList.map .char⟩, false, true⟩]

/-- In a strict run the `README.md` that is dropped makes the program fail. -/
theorem strict_indexTree :
    Invocation.ofArguments ["files", "--strict"] = .ok strictFiles ∧
    (∀ cause ∈ (execute indexTree [] strictFiles).failure, ∃ count, cause = .warnings count) ∧
    (respond indexTree [] ["files", "--strict"]).exitCode = 1 := by
  have hrules : Settings.defaultExclude.mapM ExcludeRule.ofText = .ok defaultRules := by
    decide +kernel
  have hkept : (keptFiles defaultRules ⟨"/docs"⟩ (joined []) ["README.md", "index.md"]).outcome =
      .ok ["index.md"] := by
    rw [outcome_keptFiles]
    cbv
  obtain ⟨c, hdiscover⟩ : ∃ c, (Catalog.discover indexTree ⟨"/docs"⟩ ⟨"/site"⟩ true
      Settings.defaultExclude).outcome = .ok c :=
    ⟨_, outcome_discover_eq_ok_iff.2 ⟨_, hrules, _, outcome_scan_indexTree hkept, rfl⟩⟩
  have harguments : Invocation.ofArguments ["files", "--strict"] = .ok strictFiles := rfl
  obtain ⟨begun, hload⟩ := exists_after_loadSite (p := ⟨indexTree, "", []⟩) (i := strictFiles)
    load_indexTree hdiscover rfl
  have hruns : ∀ cause ∈ (execute indexTree [] strictFiles).failure,
      ∃ count, cause = .warnings count := by
    rw [failure_execute_of_after hload rfl]
    intro cause hcause
    split at hcause
    · exact ⟨_, (Option.some.inj hcause).symm⟩
    · simp at hcause
  obtain ⟨site, _, -, hsettings, dropped, loops, -, -, hdropped, -, hcode, -⟩ :=
    strict_of_respond harguments hruns
  have hsame : site.settings = strictSettings :=
    Except.ok.inj (hsettings.symm.trans load_indexTree)
  have hmem : [] ∈ dropped := by
    rw [hdropped, hsame]
    refine ⟨visits_indexTree _, hasFile_indexTree.1, ?_, hasFile_indexTree.2⟩
    show ¬ IsLeftOut Settings.defaultExclude "README.md" (joined ([] ++ ["README.md"])) false
    rw [← isExcluded_iff hrules]
    decide +kernel
  have hpositive : 0 < dropped.length := List.length_pos_of_mem hmem
  refine ⟨harguments, hruns, hcode.trans (if_pos ⟨by rw [hsame]; rfl, ?_⟩)⟩
  omega

end CommandLine
end DocSite
