import DocSite.Nav.Arrangement
import DocSite.Proofs.Refusal

/-!
# The arrangement of an accepted specification

Arranging decides what a shape stands for, keeps track of the place, and may be refused.
Where it is not refused, neither the place nor the possibility of a refusal matters any
more, and what it comes to is a plain recursion on the specification (`Spec.entries`):
a list is what its items stand for one after the other, and a mapping is one entry for
each title.

So whatever is to be said of accepted specifications is said of `Spec.entries`, and the
shapes that are refused come up once, in `entries_of_arrange`.
-/

namespace DocSite
namespace Nav

namespace Spec

mutual
/-- The entries that a specification stands for, if it is accepted. -/
def entries : Spec → List Entry
  | .leaf target => [.leaf none target]
  | .list items => entriesOfItems items
  | .mapping members => entriesOfMembers members

/-- The entries that the items of a list stand for. -/
def entriesOfItems : List Spec → List Entry
  | [] => []
  | item :: rest => item.entries ++ entriesOfItems rest

/-- The entries of a mapping, one for each title. -/
def entriesOfMembers : List (String × Spec) → List Entry
  | [] => []
  | (title, value) :: rest => value.titledEntry title :: entriesOfMembers rest

/-- The entry of a value with a title. -/
def titledEntry (title : String) : Spec → Entry
  | .leaf target => .leaf (some title) target
  | .list items => .group title (entriesOfItems items)
  | .mapping members => .group title (entriesOfMembers members)
end

end Spec

theorem exists_of_cons_eq_ok {first : Except SpecError Entry}
    {rest : Except SpecError (List Entry)} {entries : List Entry}
    (h : (do let e ← first; return e :: (← rest)) = Except.ok entries) :
    ∃ e others, first = .ok e ∧ rest = .ok others ∧ entries = e :: others := by
  obtain ⟨e, hfirst, h⟩ := bind_eq_ok_iff.1 h
  obtain ⟨others, hrest, h⟩ := bind_eq_ok_iff.1 h
  exact ⟨e, others, hfirst, hrest, (Except.ok.inj h).symm⟩

theorem exists_of_group_eq_ok {title : String} {arranging : Except SpecError (List Entry)}
    {e : Entry} (h : (do return .group title (← arranging)) = Except.ok e) :
    ∃ entries, arranging = .ok entries ∧ e = .group title entries := by
  obtain ⟨entries, harranging, h⟩ := bind_eq_ok_iff.1 h
  exact ⟨entries, harranging, (Except.ok.inj h).symm⟩

mutual
/-- **Arranging, if it comes to something, comes to the entries.** -/
theorem entries_of_arrange {location : List Step} : ∀ (spec : Spec) {entries : List Entry},
    arrange location spec = .ok entries → entries = spec.entries
  | .leaf target, entries, h => by
    rw [arrange] at h
    exact (Except.ok.inj h).symm
  | .mapping members, entries, h => by
    rw [arrange] at h
    exact entries_of_arrangeEntries members h
  | .list items, entries, h => by
    rw [arrange] at h
    exact entries_of_arrangeItems items h

theorem entries_of_arrangeEntries {location : List Step} :
    ∀ (members : List (String × Spec)) {entries : List Entry},
      arrangeEntries location members = .ok entries → entries = Spec.entriesOfMembers members
  | [], entries, h => by
    rw [arrangeEntries] at h
    exact (Except.ok.inj h).symm
  | (title, value) :: rest, entries, h => by
    rw [arrangeEntries] at h
    obtain ⟨e, others, hfirst, hrest, rfl⟩ := exists_of_cons_eq_ok h
    rw [Spec.entriesOfMembers, entry_of_arrangeEntry value hfirst,
      entries_of_arrangeEntries rest hrest]

theorem entry_of_arrangeEntry {location : List Step} {title : String} :
    ∀ (value : Spec) {e : Entry}, arrangeEntry location title value = .ok e →
      e = value.titledEntry title
  | .leaf target, e, h => by
    rw [arrangeEntry] at h
    exact (Except.ok.inj h).symm
  | .mapping members, e, h => by
    rw [arrangeEntry] at h
    obtain ⟨entries, harrange, rfl⟩ := exists_of_group_eq_ok h
    rw [Spec.titledEntry, entries_of_arrangeEntries members harrange]
  | .list items, e, h => by
    rw [arrangeEntry] at h
    obtain ⟨entries, harrange, rfl⟩ := exists_of_group_eq_ok h
    rw [Spec.titledEntry, entries_of_arrangeItems items harrange]

theorem entries_of_arrangeItems {location : List Step} {n : Nat} :
    ∀ (items : List Spec) {entries : List Entry},
      arrangeItems location n items = .ok entries → entries = Spec.entriesOfItems items
  | [], entries, h => by
    rw [arrangeItems] at h
    exact (Except.ok.inj h).symm
  | .leaf target :: rest, entries, h => by
    rw [arrangeItems] at h
    have hcons : (do let e ← Except.ok (.leaf none target)
                     return e :: (← arrangeItems location (n + 1) rest)) = Except.ok entries := h
    obtain ⟨e, others, hfirst, hrest, rfl⟩ := exists_of_cons_eq_ok hcons
    obtain rfl := Except.ok.inj hfirst
    rw [Spec.entriesOfItems, entries_of_arrangeItems rest hrest]
    rfl
  | .mapping [(title, value)] :: rest, entries, h => by
    rw [arrangeItems] at h
    obtain ⟨e, others, hfirst, hrest, rfl⟩ := exists_of_cons_eq_ok h
    rw [Spec.entriesOfItems, entry_of_arrangeEntry value hfirst, entries_of_arrangeItems rest hrest,
      Spec.entries, Spec.entriesOfMembers, Spec.entriesOfMembers]
    rfl
  | .mapping [] :: rest, entries, h => by
    rw [arrangeItems] at h
    · exact absurd h throw_ne_ok
    · simp
  | .mapping (_ :: _ :: _) :: rest, entries, h => by
    rw [arrangeItems] at h
    · exact absurd h throw_ne_ok
    · simp
  | .list _ :: rest, entries, h => by
    rw [arrangeItems] at h
    exact absurd h throw_ne_ok
end

end Nav
end DocSite
