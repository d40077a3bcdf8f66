import DocSite.Proofs.Catalog.Lookup

/-!
# Warnings among the reports

Most reports are for somebody who watches; the warnings among them count.  A row of steps
gives the warnings of its steps, one after the other, so a row of steps that give none gives
none, whatever else it reports (`IsQuiet`).
-/

namespace DocSite

namespace Journal

variable {α β : Type}

/-- The warnings among the reports. -/
def warnings (x : Journal α) : List Event :=
  x.events.filter Event.isWarning

@[simp] theorem warnings_pure (a : α) : (pure a : Journal α).warnings = [] := rfl

@[simp] theorem warnings_bind (x : Journal α) (next : α → Journal β) :
    (x >>= next).warnings = x.warnings ++ (next x.value).warnings := by
  rw [warnings, events_bind, List.filter_append]
  rfl

@[simp] theorem warnings_map (f : α → β) (x : Journal α) : (f <$> x).warnings = x.warnings := by
  rw [warnings, events_map, warnings]

theorem warnings_report (e : Event) :
    (report e).warnings = if e.isWarning then [e] else [] := by
  rw [warnings, report, List.filter_cons, List.filter_nil]

/-- Steps that do not warn make a row of steps that does not warn. -/
theorem warnings_foldlM {f : β → α → Journal β} (h : ∀ b a, (f b a).warnings = []) (as : List α)
    (b : β) : (as.foldlM f b).warnings = [] := by
  induction as generalizing b with
  | nil => rfl
  | cons a rest ih => rw [List.foldlM_cons, warnings_bind, h, ih, List.append_nil]

theorem warnings_mapM {f : α → Journal β} (h : ∀ a, (f a).warnings = []) (as : List α) :
    (as.mapM f).warnings = [] := by
  induction as with
  | nil => rfl
  | cons a rest ih => rw [List.mapM_cons, warnings_bind, h, warnings_bind, ih]; rfl

theorem warnings_forM (f : α → Journal PUnit) (as : List α) :
    (as.forM f).warnings = as.flatMap fun a => (f a).warnings := by
  induction as with
  | nil => rfl
  | cons a rest ih =>
    show (f a >>= fun _ => rest.forM f).warnings = _
    rw [warnings_bind, ih, List.flatMap_cons]

end Journal

/-! ## Steps that change something -/

section

variable {σ α β : Type}

/-- A step that changes something gives no warning, whatever it starts from. -/
def IsQuiet (x : StateT σ Journal α) : Prop :=
  ∀ s, (x.run s).warnings = []

theorem isQuiet_pure (a : α) : IsQuiet (pure a : StateT σ Journal α) :=
  fun _ => rfl

theorem IsQuiet.bind {x : StateT σ Journal α} {next : α → StateT σ Journal β} (h : IsQuiet x)
    (hnext : ∀ a, IsQuiet (next a)) : IsQuiet (x >>= next) := by
  intro s
  rw [StateT.run_bind, Journal.warnings_bind, h s, hnext, List.append_nil]

end

/-! ## Catalogs -/

namespace Catalog

theorem warnings_append (c : Catalog) (f : SourceFile) : (c.append f).warnings = [] := by
  rw [Journal.warnings, events_append]
  split <;> rfl

/-- To put files together is nothing to warn of. -/
theorem warnings_ofFiles (files : List SourceFile) : (ofFiles files).warnings = [] := by
  refine Journal.warnings_foldlM (fun c f => ?_) files empty
  rw [Journal.warnings_bind, Journal.warnings_pure, List.append_nil]
  exact warnings_append c f

end Catalog
end DocSite
