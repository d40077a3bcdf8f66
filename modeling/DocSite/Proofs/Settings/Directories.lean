import DocSite.Proofs.Path.Normalizing
import DocSite.Proofs.Refusal
import DocSite.Settings.Load

/-!
# The two directories of a site

A site must not be written into its documents, and the documents must not lie in the
site.  The check behind this rule compares the two paths step by step, as they are
spelled, and a place has many spellings.  So the question is for which spellings it
decides about places.

A path that is written without `..` has, as it is spelled, the steps that are left when
it is read, except for a leading `.` (`Path.components_eq_of_up_notMem`).  Between two
such paths one thing is still in the way: `.` at the start of one of them and not of
the other.  Where that is excluded too, directories that are let through are apart
(`apart_of_validate`).

Neither condition can be left out.  With `build/../docs` for the site, the documents in
`docs` are overwritten, and the check does not see it (`sameDirectory_behind_detour`).
-/

namespace DocSite

namespace Path

/-- Neither of two directories is the other one or lies in it, by name and without
detours. -/
structure Apart (p q : Path) : Prop where
  ne : p.normalize ≠ q.normalize
  notInside : ¬ p.normalize.LiesIn q.normalize
  notAround : ¬ q.normalize.LiesIn p.normalize

/-- **A path without `..` is spelled as it is read**, except for a leading `.`. -/
theorem components_eq_of_up_notMem {p : Path} (h : .up ∉ p.components) :
    p.components = (if p.lead = some .here then [.here] else []) ++ p.stack.reverse := by
  have hnames : ∀ step ∈ (pieces p.text).filterMap Component.ofPiece?,
      ∃ name, step = .name name := by
    intro step hstep
    obtain ⟨piece, -, hpiece⟩ := List.mem_filterMap.1 hstep
    refine (eq_up_or_name_of_ofPiece? hpiece).resolve_left ?_
    rintro rfl
    exact h (List.mem_append_right _ hstep)
  have hlead : p.lead = some .root ∨ p.lead = some .here ∨ p.lead = none := by
    rw [lead]
    split
    · exact .inl rfl
    · split
      · exact .inr (.inl rfl)
      · exact .inr (.inr rfl)
  rw [stack, components, List.foldl_append, foldl_pushStep_of_names hnames, List.reverse_append,
    List.reverse_reverse]
  rcases hlead with hlead | hlead | hlead <;> rw [hlead] <;> simp [pushStep]

variable {p q : Path}

/-- What is read behind the steps of a directory is spelled behind them. -/
theorem startsWith_of_stack_eq (hp : .up ∉ p.components) (hq : .up ∉ q.components)
    (hlead : p.lead = some .here ↔ q.lead = some .here) (above : List Component)
    (h : p.stack = above ++ q.stack) : p.StartsWith q := by
  rw [StartsWith, components_eq_of_up_notMem hp, components_eq_of_up_notMem hq, h,
    List.reverse_append]
  simp only [hlead]
  exact (List.prefix_append_right_inj _).2 (List.prefix_append _ _)

/-- Directories of which neither is spelled behind the other are apart, when neither
has a step up and both or none start at `.`. -/
theorem apart_of_not_startsWith (hp : .up ∉ p.components) (hq : .up ∉ q.components)
    (hlead : p.lead = some .here ↔ q.lead = some .here) (h : ¬ p.StartsWith q)
    (h' : ¬ q.StartsWith p) : p.Apart q where
  ne heq := h (startsWith_of_stack_eq hp hq hlead [] (normalize_eq_iff.1 heq))
  notInside hinside := by
    obtain ⟨names, -, hstack⟩ := liesIn_normalize_iff.1 hinside
    exact h (startsWith_of_stack_eq hp hq hlead _ hstack)
  notAround haround := by
    obtain ⟨names, -, hstack⟩ := liesIn_normalize_iff.1 haround
    exact h' (startsWith_of_stack_eq hq hp hlead.symm _ hstack)

end Path

namespace Settings

theorem not_startsWith_of_checkDirectories {docs site : Path}
    (h : checkDirectories docs site = .ok ()) :
    ¬ docs.StartsWith site ∧ ¬ site.StartsWith docs := by
  rw [checkDirectories] at h
  split at h
  · exact absurd h (by simp)
  · split at h
    · exact absurd h (by simp)
    · split at h
      · exact absurd h (by simp)
      · exact ⟨‹_›, ‹_›⟩

theorem checkDirectories_of_validate {s : Settings} (h : s.validate = .ok ()) :
    checkDirectories s.docsDir s.siteDir = .ok () := by
  rw [validate] at h
  split at h
  · exact absurd h throw_ne_ok
  · obtain ⟨_, -, h⟩ := bind_eq_ok_iff.1 h
    exact h

/-- **Directories that are let through are apart**, when neither is written with `..`
and both or none are written from `.`. -/
theorem apart_of_validate {s : Settings} (h : s.validate = .ok ())
    (hdocs : .up ∉ s.docsDir.components) (hsite : .up ∉ s.siteDir.components)
    (hlead : s.docsDir.lead = some .here ↔ s.siteDir.lead = some .here) :
    s.docsDir.Apart s.siteDir := by
  obtain ⟨hdocsSite, hsiteDocs⟩ :=
    not_startsWith_of_checkDirectories (checkDirectories_of_validate h)
  exact Path.apart_of_not_startsWith hdocs hsite hlead hdocsSite hsiteDocs

/-- The default directories, the one of the site with doubled slashes and `.` in it. -/
def doubledSlashes : Settings :=
  { defaults ⟨"/work"⟩ with siteDir := ⟨"//work/.//docs-site/"⟩ }

theorem apart_doubledSlashes : doubledSlashes.validate = .ok () ∧
    Path.Apart ⟨"/work/docs"⟩ ⟨"//work/.//docs-site/"⟩ := by
  have hvalidate : doubledSlashes.validate = .ok () := by decide +kernel
  exact ⟨hvalidate, apart_of_validate hvalidate (by decide +kernel) (by decide +kernel)
    (by decide +kernel)⟩

/-- The documents in `docs`, and the site in the same place by way of another
directory. -/
def behindDetour : Settings :=
  { defaults ⟨"."⟩ with docsDir := ⟨"docs"⟩, siteDir := ⟨"build/../docs"⟩ }

theorem sameDirectory_behind_detour : behindDetour.validate = .ok () ∧
    behindDetour.siteDir.normalize = behindDetour.docsDir.normalize ∧
    ¬ behindDetour.docsDir.Apart behindDetour.siteDir := by
  have hsame : behindDetour.siteDir.normalize = behindDetour.docsDir.normalize := by
    decide +kernel
  exact ⟨by decide +kernel, hsame, fun h => h.ne hsame.symm⟩

end Settings
end DocSite
