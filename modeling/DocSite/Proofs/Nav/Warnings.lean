import DocSite.Proofs.Nav.Building
import DocSite.Proofs.Nav.Drafting
import DocSite.Proofs.Warnings

/-!
# The warnings of a build

A build reports files that are named again, pages that are not named and links.  Only a link
that leads neither out of the site nor to its root is a mistake, and a build that is accepted
warns of each of these once and of nothing else (`warnings_build`).
-/

namespace DocSite
namespace Nav

/-- The links of a navigation that lead neither out of the site nor to its root, in the order
of the walk. -/
def Navigation.brokenLinks (nav : Navigation) : List Link :=
  (nav.links.filterMap nav.link?).filter fun l =>
    Url.kind l.url ≠ .external ∧ Url.kind l.url ≠ .rootAbsolute

theorem warnings_checkLinks (nav : Navigation) :
    (checkLinks nav).warnings = nav.brokenLinks.map fun l => .brokenLink l.url := by
  have hlink : ∀ l : Link, (Journal.report (linkEvent l.url)).warnings =
      if Url.kind l.url ≠ .external ∧ Url.kind l.url ≠ .rootAbsolute
        then [.brokenLink l.url] else [] := by
    intro l
    rw [Journal.warnings_report, linkEvent]
    cases Url.kind l.url <;> rfl
  rw [checkLinks, Journal.warnings_forM, Navigation.brokenLinks]
  simp only [hlink]
  induction nav.links.filterMap nav.link? with
  | nil => rfl
  | cons l rest ih =>
    rw [List.flatMap_cons, ih, List.filter_cons]
    split <;> simp [*]

namespace Drafting

variable (factory : PageFactory)

mutual
theorem isQuiet_place : ∀ e : Entry, IsQuiet (place factory e)
  | .leaf title target => by
    intro draft
    rw [place, run_leaf]
    split
    · rfl
    · rename_i f catalog hattach
      cases f.page <;> rfl
  | .group title entries => by
    rw [place]
    exact (isQuiet_placeAll entries).bind fun children draft => rfl

/-- Making parts gives no warning. -/
theorem isQuiet_placeAll : ∀ entries : List Entry, IsQuiet (placeAll factory entries)
  | [] => by
    rw [placeAll]
    exact isQuiet_pure []
  | e :: rest => by
    rw [placeAll]
    exact (isQuiet_place e).bind fun item =>
      (isQuiet_placeAll rest).bind fun items => isQuiet_pure (item :: items)
end

end Drafting

theorem Navigation.warnings_addOrphans (factory : PageFactory) (catalog : Catalog)
    (nav : Navigation) : (nav.addOrphans factory catalog).warnings = [] := by
  rw [addOrphans]
  dsimp only
  split <;> rfl

theorem warnings_finish (factory : PageFactory) (items : List Item) {made : Draft}
    (hsound : Drafting.Sound made) : (finish factory items made hsound).warnings =
      (finish factory items made hsound).value.1.brokenLinks.map fun l => .brokenLink l.url := by
  rw [finish]
  dsimp only
  rw [Journal.warnings_bind, Navigation.warnings_addOrphans, List.nil_append,
    Journal.warnings_bind, warnings_checkLinks, Journal.warnings_pure, List.append_nil]
  rfl

/-- **A build that is accepted warns of its broken links**, of each once, and of nothing
else. -/
theorem warnings_build {spec : Option Spec} {factory : PageFactory} {catalog filled : Catalog}
    {nav : Navigation} (h : (build spec factory catalog).value = (.ok nav, filled)) :
    (build spec factory catalog).warnings = nav.brokenLinks.map fun l => .brokenLink l.url := by
  obtain ⟨entries, items, made, hsound, harrange, hplaced, hfinish⟩ := exists_of_value_build h
  obtain ⟨hevents, hread⟩ := readingOf_of_arrange factory harrange
  rw [hplaced] at hread
  have hquiet : (readingOf spec factory catalog).events.filter Event.isWarning = [] := by
    rw [hevents]
    exact Drafting.isQuiet_placeAll factory entries (Draft.start catalog)
  have hwarnings := warnings_finish factory items hsound
  rw [hfinish] at hwarnings
  rw [build_of_made hread, Journal.warnings, List.filter_append, hquiet, List.nil_append]
  exact hwarnings

end Nav
end DocSite
