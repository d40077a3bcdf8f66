import Mathlib.Data.List.Sort
import DocSite.Discovery
import DocSite.Proofs.Text.ByteOrder

/-!
# The order in which files are found

Files are found in an order that is decided by their names alone: in every
directory the files before what is in other directories, index files before the
others, and otherwise by the bytes of the names.  `Before` says this of two paths
from the same directory, given as the names that lead to the files.

No path is before itself and of two paths at most one is before the other
(`Before.asymm`), so a list of paths that stands in this order is decided by what
is in it (`eq_of_pairwise_before`).  What sorts the names of one directory is
another relation, one that ties; on names that differ the two agree
(`pairwise_fileBefore_mergeSort`).
-/

namespace DocSite

/-- Two names of files of one directory stand in order: index files come first,
and else the bytes decide. -/
def FileBefore (a b : String) : Prop :=
  if isIndexName a = isIndexName b then bytes a < bytes b else isIndexName a = true

/-- Two paths from one directory stand in order: files come before what is in
directories, and the bytes of their names decide between directories. -/
def Before : List String → List String → Prop
  | [file], [other] => FileBefore file other
  | [_], _ :: _ :: _ => True
  | dir :: name :: rest, dir' :: name' :: rest' =>
    bytes dir < bytes dir' ∨ dir = dir' ∧ Before (name :: rest) (name' :: rest')
  | _, _ => False

theorem FileBefore.asymm {a b : String} (h : FileBefore a b) : ¬ FileBefore b a := by
  rw [FileBefore] at h ⊢
  by_cases hkind : isIndexName a = isIndexName b
  · rw [if_pos hkind] at h
    rw [if_pos hkind.symm]
    exact List.lt_asymm h
  · rw [if_neg hkind] at h
    rw [if_neg (Ne.symm hkind)]
    exact fun hb => hkind (h.trans hb.symm)

theorem Before.asymm : ∀ {path other : List String}, Before path other → ¬ Before other path
  | [_], [_], h => FileBefore.asymm h
  | [_], _ :: _ :: _, _ => by simp [Before]
  | dir :: name :: rest, dir' :: name' :: rest', h => by
    rw [Before] at h ⊢
    rcases h with hlt | ⟨rfl, h⟩
    · rintro (hlt' | ⟨rfl, -⟩)
      · exact List.lt_asymm hlt hlt'
      · exact List.lt_irrefl _ hlt
    · rintro (hlt' | ⟨-, h'⟩)
      · exact List.lt_irrefl _ hlt'
      · exact h.asymm h'
  | [], _, h => by simp [Before] at h
  | _ :: _, [], h => by simp [Before] at h
  | _ :: _ :: _, [_], h => by simp [Before] at h

theorem Before.ne_nil : ∀ {path other : List String}, Before path other → path ≠ [] ∧ other ≠ []
  | _ :: _, _ :: _, _ => ⟨List.cons_ne_nil _ _, List.cons_ne_nil _ _⟩
  | [], _, h => by simp [Before] at h
  | _ :: _, [], h => by simp [Before] at h

/-- Paths in one directory stand in the order in which they stand from there. -/
theorem Before.cons (dir : String) {path other : List String} (h : Before path other) :
    Before (dir :: path) (dir :: other) := by
  obtain ⟨hne, hne'⟩ := h.ne_nil
  obtain ⟨name, rest, rfl⟩ := List.exists_cons_of_ne_nil hne
  obtain ⟨name', rest', rfl⟩ := List.exists_cons_of_ne_nil hne'
  exact .inr ⟨rfl, h⟩

/-- Paths in two directories stand in the order of the directories. -/
theorem before_cons_of_bytes_lt {dir dir' : String} {path other : List String}
    (h : bytes dir < bytes dir') (hne : path ≠ []) (hne' : other ≠ []) :
    Before (dir :: path) (dir' :: other) := by
  obtain ⟨name, rest, rfl⟩ := List.exists_cons_of_ne_nil hne
  obtain ⟨name', rest', rfl⟩ := List.exists_cons_of_ne_nil hne'
  exact .inl h

/-- A file comes before what is in a directory. -/
theorem before_singleton_cons (file dir : String) {other : List String} (hne : other ≠ []) :
    Before [file] (dir :: other) := by
  obtain ⟨name, rest, rfl⟩ := List.exists_cons_of_ne_nil hne
  exact True.intro

/-- What stands between two paths that lead through a directory leads through it as well. -/
theorem exists_of_before_before {dirs path other middle : List String} (hpath : path ≠ [])
    (hother : other ≠ []) (h : Before (dirs ++ path) middle) (h' : Before middle (dirs ++ other)) :
    ∃ rest, rest ≠ [] ∧ middle = dirs ++ rest := by
  induction dirs generalizing middle with
  | nil => exact ⟨middle, h.ne_nil.2, rfl⟩
  | cons dir dirs ih =>
    obtain ⟨name, rest, hname⟩ :=
      List.exists_cons_of_ne_nil (List.append_ne_nil_of_right_ne_nil dirs hpath)
    obtain ⟨name', rest', hname'⟩ :=
      List.exists_cons_of_ne_nil (List.append_ne_nil_of_right_ne_nil dirs hother)
    rw [List.cons_append, hname] at h
    rw [List.cons_append, hname'] at h'
    match middle, h, h' with
    | [], h, _ => simp [Before] at h
    | [_], h, _ => simp [Before] at h
    | dir' :: next :: others, h, h' =>
      rw [Before] at h h'
      rcases h with hlt | ⟨rfl, h⟩
      · rcases h' with hlt' | ⟨rfl, -⟩
        · exact absurd hlt' (List.lt_asymm hlt)
        · exact absurd hlt (List.lt_irrefl _)
      · rcases h' with hlt' | ⟨-, h'⟩
        · exact absurd hlt' (List.lt_irrefl _)
        · obtain ⟨below, hbelow, heq⟩ := ih (hname ▸ h) (hname' ▸ h')
          exact ⟨below, hbelow, congrArg (dir :: ·) heq⟩

theorem Before.irrefl (path : List String) : ¬ Before path path :=
  fun h => h.asymm h

theorem nodup_of_pairwise_before {paths : List (List String)} (h : paths.Pairwise Before) :
    paths.Nodup :=
  h.imp (by
    rintro path _ hbefore rfl
    exact Before.irrefl path hbefore)

/-- Paths in order are decided by what is among them. -/
theorem eq_of_pairwise_before {paths others : List (List String)} (h : paths.Pairwise Before)
    (h' : others.Pairwise Before) (hmem : ∀ path, path ∈ paths ↔ path ∈ others) :
    paths = others := by
  have hperm : paths.Perm others :=
    (List.perm_ext_iff_of_nodup (nodup_of_pairwise_before h) (nodup_of_pairwise_before h')).2 hmem
  exact hperm.eq_of_pairwise (fun _ _ _ _ hab hba => absurd hba hab.asymm) h h'

/-! ## Sorting the names of one directory -/

theorem lt_of_le_of_distinct {a b : String} (h : a ≤ b) (hne : a ≠ b) : a < b :=
  String.not_le.1 fun hba => hne (String.le_antisymm h hba)

theorem fileOrder_trans (a b c : String) (hab : fileOrder a b) (hbc : fileOrder b c) :
    fileOrder a c := by
  rw [fileOrder] at hab hbc ⊢
  cases ha : isIndexName a <;> cases hb : isIndexName b <;> cases hc : isIndexName c <;>
    simp_all only [decide_eq_true_eq, if_true, if_false, reduceCtorEq]
  all_goals exact String.le_trans hab hbc

theorem fileOrder_total (a b : String) : fileOrder a b || fileOrder b a := by
  rw [fileOrder, fileOrder]
  cases ha : isIndexName a <;> cases hb : isIndexName b <;>
    simp [String.le_total a b]

theorem fileBefore_of_fileOrder {a b : String} (h : fileOrder a b) (hne : a ≠ b) :
    FileBefore a b := by
  rw [fileOrder] at h
  rw [FileBefore, bytes_lt_bytes_iff]
  split at h
  · rename_i hkind
    rw [if_pos hkind]
    exact lt_of_le_of_distinct (of_decide_eq_true h) hne
  · rename_i hkind
    rwa [if_neg hkind]

theorem pairwise_fileBefore_mergeSort {names : List String} (h : names.Nodup) :
    (names.mergeSort fileOrder).Pairwise FileBefore := by
  have hsorted := List.pairwise_mergeSort fileOrder_trans fileOrder_total names
  have hnodup : (names.mergeSort fileOrder).Nodup := (List.mergeSort_perm names _).nodup_iff.2 h
  exact (hsorted.and hnodup).imp fun hboth => fileBefore_of_fileOrder hboth.1 hboth.2

theorem pairwise_bytes_mergeSort {names : List String} (h : names.Nodup) :
    (names.mergeSort (· ≤ ·)).Pairwise fun a b => bytes a < bytes b := by
  have hsorted := List.pairwise_mergeSort
    (fun a b c (hab : decide (a ≤ b)) (hbc : decide (b ≤ c)) =>
      decide_eq_true (String.le_trans (of_decide_eq_true hab) (of_decide_eq_true hbc)))
    (fun a b => by simpa using String.le_total a b) names
  have hnodup : (names.mergeSort (· ≤ ·)).Nodup := (List.mergeSort_perm names _).nodup_iff.2 h
  refine (hsorted.and hnodup).imp fun {a b} hboth => ?_
  rw [bytes_lt_bytes_iff]
  exact lt_of_le_of_distinct (of_decide_eq_true hboth.1) hboth.2

end DocSite
