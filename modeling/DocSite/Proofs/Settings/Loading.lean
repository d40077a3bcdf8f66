import DocSite.Proofs.Refusal
import DocSite.Settings.Load

/-!
# Where settings come from

Loading has three steps, of which only the second one looks at the environment (`load_eq`).
The configuration file is found and read (`written`); the references in what it says are
resolved (`resolve`); and what was said when the program was started is put over that and the
whole is checked (`settle`).
-/

namespace DocSite

/-- Nothing is said about a site when a program is started. -/
def Overrides.none : Overrides := ⟨.none, .none, .none, .none, []⟩

namespace Settings

/-- What a text says of a site, its references as they are written. -/
def writtenIn (text : String) : Except SettingsError WrittenSettings := do
  let some entries := Toml.document? text | throw (.parse none)
  (Decode.settings entries).mapError fun cause => .parse (some cause)

/-- What the file of a path says of a site. -/
def writtenAt (fs : FileSystem) (path : Path) : Except SettingsError WrittenSettings := do
  writtenIn (← (readText fs path).mapError .io)

/-- The configuration file, with what it says; there may be none, but one that is named must
be there. -/
def written (fs : FileSystem) (named : Option Path) :
    Except SettingsError (Option (Path × WrittenSettings)) :=
  match named with
  | some path =>
    if fs.pathExists path then (writtenAt fs path).map fun w => some (path, w)
    else .error (.notFound path)
  | none =>
    match find? fs with
    | some path => (writtenAt fs path).map fun w => some (path, w)
    | none => .ok none

/-- The settings of a configuration file, or those that hold without one. -/
def resolve (fs : FileSystem) (env : Environment) :
    Option (Path × WrittenSettings) → Except SettingsError Settings
  | some (path, w) => (expandReferences env w).map (ofWritten path)
  | none => .ok (defaults (FileSystem.canonicalPath fs.cwd))

/-- Settings with what was said when the program was started, checked. -/
def settle (o : Overrides) (s : Settings) : Except SettingsError Settings :=
  ((s.override o).validate.mapError .misfit).map fun _ => s.override o

theorem override_getD_none (s : Settings) (overrides : Option Overrides) :
    (overrides.map s.override).getD s = s.override (overrides.getD .none) := by
  cases overrides <;> rfl

theorem settle_eq_ok_iff {o : Overrides} {s t : Settings} :
    settle o s = .ok t ↔ t = s.override o ∧ t.validate = .ok () := by
  rw [settle]
  cases hvalid : (s.override o).validate with
  | ok _ =>
    constructor
    · intro h
      obtain rfl := Except.ok.inj h
      exact ⟨rfl, hvalid⟩
    · rintro ⟨rfl, -⟩
      rfl
  | error misfit =>
    refine iff_of_false nofun ?_
    rintro ⟨rfl, hok⟩
    rw [hvalid] at hok
    cases hok

variable {fs : FileSystem} {env : Environment}

theorem ofText_eq (path : Path) (text : String) : ofText env path text =
    writtenIn text >>= fun w => (expandReferences env w).map (ofWritten path) := by
  rw [ofText, writtenIn]
  cases Toml.document? text with
  | none => rfl
  | some entries =>
    show (_ >>= fun w => _ >>= fun expanded => pure (ofWritten path expanded)) = _
    simp only [bind_pure_comp]
    rfl

theorem ofFile_eq (path : Path) : ofFile fs env path =
    writtenAt fs path >>= fun w => (expandReferences env w).map (ofWritten path) := by
  rw [ofFile, writtenAt, bind_assoc]
  exact bind_congr fun text => ofText_eq path text

/-- **Only resolving references looks at the environment.** -/
theorem load_eq (named : Option Path) (overrides : Option Overrides) :
    load fs env named overrides =
      written fs named >>= fun found => resolve fs env found >>= settle (overrides.getD .none) := by
  have hsettle : ∀ s : Settings, (do
      let s := (overrides.map s.override).getD s
      s.validate.mapError .misfit
      return s : Except SettingsError Settings) = settle (overrides.getD .none) s := by
    intro s
    rw [override_getD_none]
    rfl
  have hfile : ∀ path, (ofFile fs env path >>= settle (overrides.getD .none)) =
      (writtenAt fs path).map (fun w => some (path, w)) >>= fun found =>
        resolve fs env found >>= settle (overrides.getD .none) := by
    intro path
    rw [ofFile_eq]
    cases writtenAt fs path <;> rfl
  unfold load
  simp only [hsettle]
  cases named with
  | some path =>
    simp only [written]
    by_cases hexists : fs.pathExists path = true
    · rw [if_pos hexists, if_pos hexists]
      exact hfile path
    · rw [if_neg hexists, if_neg hexists]
      rfl
  | none =>
    simp only [written]
    cases find? fs with
    | some path => exact hfile path
    | none => rfl

/-- What has come to settings was said when the program was started, or stands in the
configuration file, or is a default. -/
theorem exists_of_load_eq_ok {named : Option Path} {overrides : Option Overrides} {s : Settings}
    (h : load fs env named overrides = .ok s) : ∃ found loaded,
      written fs named = .ok found ∧ resolve fs env found = .ok loaded ∧
        s = loaded.override (overrides.getD .none) ∧ s.validate = .ok () := by
  rw [load_eq] at h
  obtain ⟨found, hfound, h⟩ := bind_eq_ok_iff.1 h
  obtain ⟨loaded, hloaded, h⟩ := bind_eq_ok_iff.1 h
  obtain ⟨rfl, hvalid⟩ := settle_eq_ok_iff.1 h
  exact ⟨found, loaded, hfound, hloaded, rfl, hvalid⟩

end Settings
end DocSite
