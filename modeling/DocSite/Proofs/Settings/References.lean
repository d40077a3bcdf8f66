import Mathlib
import DocSite.Proofs.FileSystem.Lookup
import DocSite.Proofs.Settings.Loading

/-!
# What settings have from the environment

A text is cut into parts without a look at the environment (`Reference.parts`), and nothing of
it is lost (`flatMap_spelled_parts`).  What it expands to is put together from what each part
stands for, in order (`expandChars_eq`).  So a value that is put in for a reference is in the
result as it is: it is not cut into parts itself.

From this cut the variables that settings ask for can be read (`WrittenSettings.references`),
and in two environments that agree on them loading comes to the same
(`load_eq_of_agree`).  In all the other settings nothing is replaced (`IsLoaded`).
-/

namespace DocSite

namespace Reference

/-- A part of a text in which references are resolved. -/
inductive Part where
  /-- A character that stands for itself. -/
  | plain (c : Char)
  /-- A doubled dollar sign. -/
  | doubled
  /-- A reference in braces, with what stands between them. -/
  | braced (inside : List Char)
  /-- A reference without braces. -/
  | bare (name : List Char)
  deriving DecidableEq, Repr

namespace Part

/-- A part as it is written. -/
def spelled : Part → List Char
  | plain c => [c]
  | doubled => ['$', '$']
  | braced inside => '$' :: '\x7b' :: inside ++ ['\x7d']
  | bare name => '$' :: name

/-- What a part stands for. -/
def resolve (env : Environment) : Part → Except ReferenceError (List Char)
  | plain c => .ok [c]
  | doubled => .ok ['$']
  | braced inside => (Reference.braced env inside).map String.toList
  | bare name => (lookup env (String.ofList name)).map String.toList

/-- The variable that a part refers to. -/
def name? : Part → Option String
  | plain _ | doubled => none
  | braced inside => some (nameAndDefault inside).1
  | bare name => some (String.ofList name)

end Part

/-- The parts of a text. -/
def parts (text : List Char) : List Part :=
  match text with
  | [] => []
  | '$' :: '\x7b' :: rest =>
    let inside := rest.takeWhile (· ≠ '\x7d')
    if inside.length < rest.length then .braced inside :: parts (rest.drop (inside.length + 1))
    else .plain '$' :: .plain '\x7b' :: parts rest
  | '$' :: '$' :: rest => .doubled :: parts rest
  | '$' :: c :: rest =>
    if isWordChar c then
      let name := c :: rest.takeWhile isWordChar
      .bare name :: parts (rest.drop (name.length - 1))
    else .plain '$' :: parts (c :: rest)
  | c :: rest => .plain c :: parts rest
termination_by text.length
decreasing_by
  all_goals
    simp only [List.length_drop, List.length_cons]
    omega

/-- What stands before the first closing brace, the brace, and what stands behind it. -/
theorem takeWhile_append_cons_drop {rest : List Char}
    (h : (rest.takeWhile (· ≠ '\x7d')).length < rest.length) :
    rest.takeWhile (· ≠ '\x7d') ++
      '\x7d' :: rest.drop ((rest.takeWhile (· ≠ '\x7d')).length + 1) = rest := by
  induction rest with
  | nil => simp at h
  | cons c rest ih =>
    by_cases hc : c = '\x7d'
    · subst hc
      rfl
    · rw [List.takeWhile_cons_of_pos (by simpa using hc)] at h ⊢
      rw [List.cons_append, List.length_cons, List.drop_succ_cons,
        ih (by simpa using h)]

/-- **A text is its parts**, one behind the other. -/
theorem flatMap_spelled_parts (text : List Char) : (parts text).flatMap Part.spelled = text := by
  fun_induction parts text with
  | case1 => rfl
  | case2 rest inside hclosed ih =>
    rw [List.flatMap_cons, ih, Part.spelled, List.append_assoc]
    exact congrArg ('$' :: '\x7b' :: ·) (takeWhile_append_cons_drop hclosed)
  | case3 rest inside hopen ih =>
    rw [List.flatMap_cons, List.flatMap_cons, ih]
    rfl
  | case4 rest ih =>
    rw [List.flatMap_cons, ih]
    rfl
  | case5 c rest hbrace hdollar hword name ih =>
    have hrest : rest.takeWhile isWordChar ++ rest.drop (rest.takeWhile isWordChar).length = rest :=
      List.prefix_iff_eq_append.1 (List.takeWhile_prefix _)
    rw [List.flatMap_cons, ih, Part.spelled]
    exact congrArg ('$' :: c :: ·) hrest
  | case6 c rest hbrace hdollar hword ih =>
    rw [List.flatMap_cons, ih]
    rfl
  | case7 c rest hbrace hdollar hbare ih =>
    rw [List.flatMap_cons, ih]
    rfl

/-- **A text expands to what its parts stand for.** -/
theorem expandChars_eq (env : Environment) (text : List Char) :
    expandChars env text = ((parts text).mapM (Part.resolve env)).map List.flatten := by
  have hcons : ∀ (p : Part) (ps : List Part),
      ((p :: ps).mapM (Part.resolve env)).map List.flatten = p.resolve env >>= fun value =>
        ((ps.mapM (Part.resolve env)).map List.flatten).map fun values => value ++ values := by
    intro p ps
    rw [List.mapM_cons]
    cases p.resolve env with
    | error e => rfl
    | ok value => cases ps.mapM (Part.resolve env) <;> rfl
  fun_induction parts text with
  | case1 =>
    rw [expandChars]
    rfl
  | case2 rest inside hclosed ih =>
    rw [expandChars, hcons, ← ih, if_pos hclosed, Part.resolve]
    cases Reference.braced env inside <;> rfl
  | case3 rest inside hopen ih =>
    rw [expandChars, hcons, hcons, ← ih, if_neg hopen]
    cases expandChars env rest <;> rfl
  | case4 rest ih =>
    rw [expandChars, hcons, ← ih]
    rfl
  | case5 c rest hbrace hdollar hword name ih =>
    rw [expandChars, hcons, ← ih, if_pos hword, Part.resolve]
    · show (lookup env (String.ofList name) >>= _) = _
      cases lookup env (String.ofList name) <;> rfl
    · exact hbrace
    · exact hdollar
  | case6 c rest hbrace hdollar hword ih =>
    rw [expandChars, hcons, ← ih, if_neg hword]
    · rfl
    · exact hbrace
    · exact hdollar
  | case7 c rest hbrace hdollar hbare ih =>
    rw [expandChars, hcons, ← ih]
    · rfl
    · exact hbrace
    · exact hdollar
    · exact hbare

/-- The variables that a setting refers to; one without a brace behind a dollar sign refers to
none. -/
def names (text : String) : List String :=
  if hasBrace text.toList then (parts text.toList).filterMap Part.name? else []

/-- A text is another one with the value of every reference put in, if it has any in braces. -/
def Expands (env : Environment) (text value : String) : Prop :=
  if hasBrace text.toList then ∃ values,
    List.Forall₂ (fun p part => p.resolve env = .ok part) (parts text.toList) values ∧
      value.toList = values.flatten
  else value = text

theorem expand_eq_ok_iff {env : Environment} {text value : String} :
    expand env text = .ok value ↔ Expands env text value := by
  rw [expand, Expands]
  split
  · rw [expandChars_eq, map_eq_ok_iff]
    simp only [map_eq_ok_iff, mapM_eq_ok_iff]
    constructor
    · rintro ⟨_, ⟨values, hvalues, rfl⟩, rfl⟩
      exact ⟨values, hvalues, String.toList_ofList⟩
    · rintro ⟨values, hvalues, heq⟩
      exact ⟨_, ⟨values, hvalues, rfl⟩, by rw [← heq, String.ofList_toList]⟩
  · rw [Except.ok.injEq, eq_comm]

variable {env env' : Environment}

theorem Part.resolve_congr {p : Part} (h : ∀ name ∈ p.name?, env.get? name = env'.get? name) :
    p.resolve env = p.resolve env' := by
  have hlookup : ∀ name, env.get? name = env'.get? name → lookup env name = lookup env' name := by
    intro name heq
    rw [lookup, lookup, heq]
  cases p with
  | plain c => rfl
  | doubled => rfl
  | braced inside => simp only [resolve, Reference.braced, hlookup _ (h _ rfl)]
  | bare name => rw [resolve, resolve, hlookup _ (h _ rfl)]

/-- A setting expands to the same where the variables that it refers to have the same values. -/
theorem expand_congr {text : String} (h : ∀ name ∈ names text, env.get? name = env'.get? name) :
    expand env text = expand env' text := by
  rw [expand, expand]
  split
  · rename_i hbrace
    rw [names, if_pos hbrace] at h
    rw [expandChars_eq, expandChars_eq, mapM_congr fun p hp => Part.resolve_congr fun name hname =>
      h name (List.mem_filterMap.2 ⟨p, hp, hname⟩)]
  · rfl

end Reference

/-- The values that references are resolved in. -/
def WrittenSettings.expandable (w : WrittenSettings) : List String :=
  w.siteName :: (w.docs.docsDir.toList ++ w.docs.siteDir.toList ++ w.theme.dirs.getD [])

/-- The variables that written settings refer to. -/
def WrittenSettings.references (w : WrittenSettings) : List String :=
  w.expandable.flatMap Reference.names

namespace Settings

open Reference

variable {env env' : Environment} {w : WrittenSettings}

/-- The value of one field with its references resolved. -/
def expandField (env : Environment) (field text : String) : Except SettingsError String :=
  (expand env text).mapError (.environment field)

theorem expandReferences_eq : expandReferences env w = do
    let siteName ← expandField env "site_name" w.siteName
    let docsDir ← w.docs.docsDir.mapM (expandField env "docs.docs_dir")
    let siteDir ← w.docs.siteDir.mapM (expandField env "docs.site_dir")
    let dirs ← w.theme.dirs.mapM fun dirs => dirs.mapM (expandField env "theme.dirs")
    return { w with
      siteName
      docs := { w.docs with docsDir, siteDir }
      theme := { w.theme with dirs } } := rfl

/-- Written settings expand to the same where the variables that they refer to have the same
values. -/
theorem expandReferences_congr
    (h : ∀ name ∈ w.references, env.get? name = env'.get? name) :
    expandReferences env w = expandReferences env' w := by
  have hfield : ∀ field, ∀ text ∈ w.expandable,
      expandField env field text = expandField env' field text := by
    intro field text htext
    rw [expandField, expandField,
      expand_congr fun name hname => h name (List.mem_flatMap.2 ⟨text, htext, hname⟩)]
  have hdocsDir : w.docs.docsDir.mapM (expandField env "docs.docs_dir") =
      w.docs.docsDir.mapM (expandField env' "docs.docs_dir") :=
    option_mapM_congr fun text htext =>
      hfield _ text (by simp [WrittenSettings.expandable, Option.mem_def.1 htext])
  have hsiteDir : w.docs.siteDir.mapM (expandField env "docs.site_dir") =
      w.docs.siteDir.mapM (expandField env' "docs.site_dir") :=
    option_mapM_congr fun text htext =>
      hfield _ text (by simp [WrittenSettings.expandable, Option.mem_def.1 htext])
  have hdirs : (w.theme.dirs.mapM fun dirs => dirs.mapM (expandField env "theme.dirs")) =
      w.theme.dirs.mapM fun dirs => dirs.mapM (expandField env' "theme.dirs") :=
    option_mapM_congr fun dirs hdirs => mapM_congr fun text htext =>
      hfield _ text (by simp [WrittenSettings.expandable, Option.mem_def.1 hdirs, htext])
  rw [expandReferences_eq, expandReferences_eq, hfield _ w.siteName (List.mem_cons_self ..),
    hdocsDir, hsiteDir, hdirs]

theorem expandField_eq_ok_iff {field text value : String} :
    expandField env field text = .ok value ↔ Expands env text value := by
  rw [expandField, mapError_eq_ok_iff, expand_eq_ok_iff]

theorem expands_self {text : String} (h : hasBrace text.toList = false) :
    Expands env text text := by
  rw [Expands, h]
  rfl

/-- A setting with a default expands to a setting with the same default. -/
theorem expands_getD {field : String} {text? value? : Option String} {default : String}
    (hdefault : hasBrace default.toList = false)
    (h : text?.mapM (expandField env field) = .ok value?) :
    Expands env (text?.getD default) (value?.getD default) := by
  cases option_mapM_eq_ok_iff.1 h with
  | none => exact expands_self hdefault
  | some hexpand => exact expandField_eq_ok_iff.1 hexpand

theorem forall₂_expands_getD {field : String} {texts? values? : Option (List String)}
    (h : (texts?.mapM fun texts => texts.mapM (expandField env field)) = .ok values?) :
    List.Forall₂ (Expands env) (texts?.getD []) (values?.getD []) := by
  cases option_mapM_eq_ok_iff.1 h with
  | none => exact .nil
  | some hall =>
    exact (mapM_eq_ok_iff.1 hall).imp fun _ _ hexpand => expandField_eq_ok_iff.1 hexpand

/-- A directory is the one that was said, or else the one that is written, expanded and then read
from where the file is. -/
def IsPlaced (env : Environment) (around : Path) (said : Option Path) (text : String)
    (dir : Path) : Prop :=
  match said with
  | some other => dir = other
  | none => ∃ value, Expands env text value ∧ dir = around.join ⟨value⟩

theorem isPlaced_getD {text value : String} (h : Expands env text value) (around : Path)
    (said : Option Path) : IsPlaced env around said text (said.getD (around.join ⟨value⟩)) := by
  cases said with
  | none => exact ⟨value, h, rfl⟩
  | some other => rfl

/-- Settings as they are loaded from a file, with what was said when the program was started: the
values that references are resolved in are expanded, and all others are as they were written or
said. -/
structure IsLoaded (env : Environment) (path : Path) (w : WrittenSettings) (o : Overrides)
    (s : Settings) : Prop where
  siteName : Expands env w.siteName s.siteName
  docsDir : IsPlaced env (path.parent?.getD ⟨"."⟩) o.docsDir (w.docs.docsDir.getD "docs") s.docsDir
  siteDir : IsPlaced env (path.parent?.getD ⟨"."⟩) o.siteDir (w.docs.siteDir.getD "site") s.siteDir
  themeDirs : ∃ texts, List.Forall₂ (Expands env) (w.theme.dirs.getD []) texts ∧
    s.themeDirs = o.themeDirs ++ texts.map fun text => (path.parent?.getD ⟨"."⟩).join ⟨text⟩
  exclude : s.exclude = w.docs.exclude.getD defaultExclude
  nav : s.nav = w.docs.nav
  templates : s.templates = w.theme.templates.getD []
  directoryUrls : s.directoryUrls = o.directoryUrls.getD (w.docs.directoryUrls.getD true)
  strict : s.strict = o.strict.getD w.strict
  source : s.source = some path

theorem isLoaded_of_expandReferences {e : WrittenSettings} (h : expandReferences env w = .ok e)
    (path : Path) (o : Overrides) : IsLoaded env path w o ((ofWritten path e).override o) := by
  rw [expandReferences_eq] at h
  obtain ⟨siteName, hsiteName, h⟩ := bind_eq_ok_iff.1 h
  obtain ⟨docsDir, hdocsDir, h⟩ := bind_eq_ok_iff.1 h
  obtain ⟨siteDir, hsiteDir, h⟩ := bind_eq_ok_iff.1 h
  obtain ⟨dirs, hdirs, h⟩ := bind_eq_ok_iff.1 h
  obtain rfl := Except.ok.inj h
  exact {
    siteName := expandField_eq_ok_iff.1 hsiteName
    docsDir := isPlaced_getD (expands_getD (by decide) hdocsDir) _ o.docsDir
    siteDir := isPlaced_getD (expands_getD (by decide) hsiteDir) _ o.siteDir
    themeDirs := ⟨dirs.getD [], forall₂_expands_getD hdirs, rfl⟩
    exclude := rfl
    nav := rfl
    templates := rfl
    directoryUrls := rfl
    strict := rfl
    source := rfl }

/-- **Settings depend on the variables that they refer to, and on no other.**  In two environments
that agree on these, loading comes to the same settings or to the same error.  What is loaded from
a file has the expanded values and the others as they are, and without a file there are the
defaults. -/
theorem load_eq_of_agree {fs : FileSystem} {env env' : Environment} {named : Option Path}
    {overrides : Option Overrides}
    (h : ∀ path w, written fs named = .ok (some (path, w)) →
      ∀ name ∈ w.references, env.get? name = env'.get? name) :
    load fs env named overrides = load fs env' named overrides ∧
    ∀ s, load fs env named overrides = .ok s →
      (written fs named = .ok none ∧
        s = (defaults (FileSystem.canonicalPath fs.cwd)).override (overrides.getD .none)) ∨
      ∃ path w, written fs named = .ok (some (path, w)) ∧
        IsLoaded env path w (overrides.getD .none) s := by
  constructor
  · rw [load_eq, load_eq]
    refine bind_congr_of_ok fun found hfound => ?_
    cases found with
    | none => rfl
    | some file =>
      obtain ⟨path, w⟩ := file
      rw [resolve, resolve, expandReferences_congr (h path w hfound)]
  · intro s hload
    obtain ⟨found, loaded, hfound, hloaded, rfl, -⟩ := exists_of_load_eq_ok hload
    cases found with
    | none =>
      obtain rfl := Except.ok.inj hloaded
      exact .inl ⟨hfound, rfl⟩
    | some file =>
      obtain ⟨path, w⟩ := file
      obtain ⟨e, hexpand, rfl⟩ := map_eq_ok_iff.1 hloaded
      exact .inr ⟨path, w, hfound, isLoaded_of_expandReferences hexpand path _⟩

/-! ## A file with references -/

/-- A configuration file in which a reference stands where references are resolved, and one where
they are not. -/
def referringText : String :=
  "site_name = '$\x7bTITLE:-Docs\x7d by $OWNER'\n[docs]\nexclude = ['$\x7bOWNER\x7d']\n"

/-- What the file says. -/
def referringSettings : WrittenSettings where
  siteName := "$\x7bTITLE:-Docs\x7d by $OWNER"
  strict := false
  docs := ⟨none, none, none, some ["$\x7bOWNER\x7d"], none⟩
  theme := ⟨none, none⟩

/-- A configuration file at the root. -/
def referringTree : FileSystem where
  entries := [(["tome.toml"], .file referringText.toUTF8 0)]
  cwd := []
  clock := 0
  distinct := by decide
  grounded := by decide
  legal := by decide

/-- An owner whose name looks like a reference. -/
def ownerOnly : Environment := [("OWNER", .text "$\x7bTITLE\x7d")]

/-- The text of a file in which its bytes are kept. -/
theorem readText_of_locate {fs : FileSystem} {path : Path} {place : Location} {text : String}
    {mtime : Nat} (h : fs.locate path = .ok (place, .file text.toUTF8 mtime)) :
    readText fs path = .ok text := by
  have hdecode : String.fromUTF8? text.toUTF8 = some text := by
    rw [String.fromUTF8?]
    exact dif_pos text.isValidUTF8
  have hread : fs.readFile path = .ok text.toUTF8 := by
    rw [FileSystem.readFile, h]
    rfl
  rw [readText, hread]
  simp only [Except.mapError, bind, Except.bind, hdecode]
  rfl

theorem written_referringTree : written referringTree (some ⟨"/tome.toml"⟩) =
    .ok (some (⟨"/tome.toml"⟩, referringSettings)) := by
  have hlocate : referringTree.locate ⟨"/tome.toml"⟩ =
      .ok (["tome.toml"], .file referringText.toUTF8 0) :=
    FileSystem.locate_eq_ok_of_follow [] ["", "tome.toml"] (by decide +kernel) (by cbv)
  have hexists : referringTree.pathExists ⟨"/tome.toml"⟩ = true := by
    rw [FileSystem.pathExists, hlocate]
    rfl
  have hwritten : writtenIn referringText = .ok referringSettings := by
    cbv
  rw [written, if_pos hexists, writtenAt, readText_of_locate hlocate]
  show (writtenIn referringText).map _ = _
  rw [hwritten]
  rfl

/-- The value that is put in for a reference is kept as it is, even if it looks like one, and a
variable that nothing refers to does not matter. -/
theorem load_referringTree :
    (∀ path w, written referringTree (some ⟨"/tome.toml"⟩) = .ok (some (path, w)) →
      ∀ name ∈ w.references,
        ownerOnly.get? name = Environment.get? (("PASSWORD", .undecodable) :: ownerOnly) name) ∧
    load referringTree ownerOnly (some ⟨"/tome.toml"⟩) none =
      load referringTree (("PASSWORD", .undecodable) :: ownerOnly) (some ⟨"/tome.toml"⟩) none ∧
    ∃ s, load referringTree ownerOnly (some ⟨"/tome.toml"⟩) none = .ok s ∧
      s.siteName = "Docs by $\x7bTITLE\x7d" ∧ s.exclude = ["$\x7bOWNER\x7d"] := by
  have hnames : referringSettings.references = ["TITLE", "OWNER"] := by cbv
  have hagree : ∀ path w, written referringTree (some ⟨"/tome.toml"⟩) = .ok (some (path, w)) →
      ∀ name ∈ w.references,
        ownerOnly.get? name = Environment.get? (("PASSWORD", .undecodable) :: ownerOnly) name := by
    intro path w hwritten name hname
    rw [written_referringTree] at hwritten
    cases hwritten
    rw [hnames] at hname
    rcases List.mem_pair.1 hname with rfl | rfl <;> decide +kernel
  have hboth := @load_eq_of_agree _ _ _ _ none hagree
  have hexpand : expandReferences ownerOnly referringSettings =
      .ok { referringSettings with siteName := "Docs by $\x7bTITLE\x7d" } := by
    cbv
  have hload : load referringTree ownerOnly (some ⟨"/tome.toml"⟩) none =
      .ok (ofWritten ⟨"/tome.toml"⟩
        { referringSettings with siteName := "Docs by $\x7bTITLE\x7d" }) := by
    rw [load_eq, written_referringTree]
    show resolve referringTree ownerOnly (some (⟨"/tome.toml"⟩, referringSettings)) >>= _ = _
    rw [resolve, hexpand]
    exact settle_eq_ok_iff.2 ⟨rfl, by decide +kernel⟩
  refine ⟨hagree, hboth.1, _, hload, rfl, ?_⟩
  obtain ⟨hnone, -⟩ | ⟨path, w, hwritten, hw⟩ := hboth.2 _ hload
  · rw [written_referringTree] at hnone
    cases hnone
  · rw [written_referringTree] at hwritten
    cases hwritten
    exact hw.exclude

end Settings
end DocSite
