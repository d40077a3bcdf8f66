import Mathlib.Data.List.Perm.Basic
import DocSite.Proofs.Nav.Folders
import DocSite.Proofs.Nav.Leaves

/-!
# The inferred arrangement keeps the paths

A path goes down the groups of its directories, and a group is found by its title.  So a
path may have to go back to a group that was left, and then it no longer stands at the
end: directories of one title are merged where the first of them stands.  What is inferred
has the paths that it is inferred from, in some order (`targets_infer_perm`).

The order is kept when every path can be put at the end (`Fits`), that is when each title
on its way either is new where it stands or is that of the last group there.  After a path
the groups at the end are those of its directories (`AtEnd`), and groups lead down only by
titles of paths that were put in (`Leads`).  So it is enough that the paths under common
titles stand together (`Together`), and then the paths come back as they were
(`targets_infer`).

An inferred specification is never refused: the items of its lists are paths and single
titles (`arrange_infer`).
-/

namespace DocSite
namespace Nav

namespace Group

/-! ## The paths in groups -/

mutual
/-- The paths in a group, from left to right. -/
def leaves : Group → List String
  | page path => [path]
  | group _ members => leavesAll members

/-- The paths in a row of groups, from left to right. -/
def leavesAll : List Group → List String
  | [] => []
  | g :: rest => g.leaves ++ leavesAll rest
end

theorem leavesAll_append (groups others : List Group) :
    leavesAll (groups ++ others) = leavesAll groups ++ leavesAll others := by
  induction groups with
  | nil => rfl
  | cons g rest ih => rw [List.cons_append, leavesAll, leavesAll, ih, List.append_assoc]

theorem leavesAll_concat_group (groups : List Group) (title : String) (members : List Group) :
    leavesAll (groups ++ [group title members]) = leavesAll groups ++ leavesAll members := by
  rw [leavesAll_append, leavesAll, leavesAll, leaves, List.append_nil]

/-- A change that adds a path to a group adds it to the row. -/
theorem leavesAll_upsert_perm {path : String} {change : List Group → List Group}
    (h : ∀ members, (leavesAll (change members)).Perm (path :: leavesAll members)) (title : String)
    (groups : List Group) :
    (leavesAll (upsert title change groups)).Perm (path :: leavesAll groups) := by
  induction groups with
  | nil => simpa [upsert, leavesAll, leaves] using h []
  | cons g rest ih =>
    cases g with
    | page other =>
      rw [upsert, leavesAll, leavesAll, leaves]
      exact (ih.append_left [other]).trans (List.Perm.swap path other _)
    | group other members =>
      rw [upsert]
      split
      · rw [leavesAll, leavesAll, leaves, leaves]
        exact (h members).append_right (leavesAll rest)
      · rw [leavesAll, leavesAll, leaves]
        exact (ih.append_left (leavesAll members)).trans List.perm_middle

theorem leavesAll_insert_perm (path : String) (titles : List String) (groups : List Group) :
    (leavesAll (insert path titles groups)).Perm (path :: leavesAll groups) := by
  induction titles generalizing groups with
  | nil =>
    rw [insert, leavesAll_append, leavesAll, leaves, leavesAll, List.append_nil]
    exact List.perm_append_singleton path _
  | cons title titles ih =>
    rw [insert]
    exact leavesAll_upsert_perm ih title groups

/-! ## Where a path is put -/

/-- No group of a row has a title. -/
def New (title : String) (groups : List Group) : Prop :=
  ∀ members, group title members ∉ groups

/-- The change is made behind all groups that have another title. -/
theorem upsert_append {title : String} {front : List Group} (h : New title front)
    (change : List Group → List Group) (rest : List Group) :
    upsert title change (front ++ rest) = front ++ upsert title change rest := by
  induction front with
  | nil => rfl
  | cons g others ih =>
    have hothers : New title others := fun members hmem => h members (List.mem_cons_of_mem g hmem)
    cases g with
    | page path => rw [List.cons_append, upsert, ih hothers, List.cons_append]
    | group other inner =>
      have hne : ¬ other = title := by
        rintro rfl
        exact h inner (List.mem_cons_self ..)
      rw [List.cons_append, upsert, if_neg hne, ih hothers, List.cons_append]

theorem upsert_of_new {title : String} {groups : List Group} (h : New title groups)
    (change : List Group → List Group) :
    upsert title change groups = groups ++ [group title (change [])] := by
  have happend := upsert_append h change []
  rwa [List.append_nil] at happend

theorem upsert_concat {title : String} {front : List Group} (h : New title front)
    (members : List Group) (change : List Group → List Group) :
    upsert title change (front ++ [group title members]) =
      front ++ [group title (change members)] := by
  rw [upsert_append h, upsert, if_pos rfl]

/-- A title is new to a row, or there is a first group that has it. -/
theorem new_or_exists_first (title : String) (groups : List Group) : New title groups ∨
    ∃ front members back, groups = front ++ group title members :: back ∧ New title front := by
  induction groups with
  | nil => exact .inl fun _ => nofun
  | cons g rest ih =>
    by_cases hg : ∃ members, g = group title members
    · obtain ⟨members, rfl⟩ := hg
      exact .inr ⟨[], members, rest, rfl, fun _ => nofun⟩
    · have hcons : ∀ {others}, New title others → New title (g :: others) :=
        fun hnew members hmem => (List.mem_cons.1 hmem).elim (fun heq => hg ⟨members, heq.symm⟩)
          (hnew members)
      rcases ih with hnew | ⟨front, members, back, rfl, hfront⟩
      · exact .inl (hcons hnew)
      · exact .inr ⟨g :: front, members, back, rfl, hcons hfront⟩

theorem mem_upsert {title other : String} {change : List Group → List Group}
    {groups members : List Group} (h : group other members ∈ upsert title change groups) :
    group other members ∈ groups ∨ other = title ∧
      (members = change [] ∨ ∃ old, group title old ∈ groups ∧ members = change old) := by
  induction groups with
  | nil =>
    obtain ⟨rfl, rfl⟩ : other = title ∧ members = change [] := by simpa [upsert] using h
    exact .inr ⟨rfl, .inl rfl⟩
  | cons g rest ih =>
    have hlater : group other members ∈ upsert title change rest →
        group other members ∈ g :: rest ∨ other = title ∧
          (members = change [] ∨ ∃ old, group title old ∈ g :: rest ∧ members = change old) := by
      intro hrest
      rcases ih hrest with hmem | ⟨htitle, hnew | ⟨old, hold, hmembers⟩⟩
      · exact .inl (List.mem_cons_of_mem g hmem)
      · exact .inr ⟨htitle, .inl hnew⟩
      · exact .inr ⟨htitle, .inr ⟨old, List.mem_cons_of_mem g hold, hmembers⟩⟩
    cases g with
    | page path =>
      rw [upsert] at h
      rcases List.mem_cons.1 h with heq | hrest
      · cases heq
      · exact hlater hrest
    | group first inner =>
      rw [upsert] at h
      split at h
      · rename_i hfirst
        subst hfirst
        rcases List.mem_cons.1 h with heq | hrest
        · cases heq
          exact .inr ⟨rfl, .inr ⟨inner, List.mem_cons_self .., rfl⟩⟩
        · exact .inl (List.mem_cons_of_mem _ hrest)
      · rcases List.mem_cons.1 h with heq | hrest
        · rw [heq]
          exact .inl (List.mem_cons_self ..)
        · exact hlater hrest

/-- Titles lead down the groups. -/
def Leads : List String → List Group → Prop
  | [], _ => True
  | title :: titles, groups => ∃ members, group title members ∈ groups ∧ Leads titles members

/-- Titles lead down the last groups, and no group before them has such a title. -/
def AtEnd : List String → List Group → Prop
  | [], _ => True
  | title :: titles, groups => ∃ front members, groups = front ++ [group title members] ∧
    New title front ∧ AtEnd titles members

/-- Titles lead down the last groups as far as they lead down any. -/
def Fits : List String → List Group → Prop
  | [], _ => True
  | title :: titles, groups => New title groups ∨
    ∃ front members, groups = front ++ [group title members] ∧ New title front ∧
      Fits titles members

theorem not_leads_nil {titles : List String} (h : Leads titles []) : titles = [] := by
  cases titles with
  | nil => rfl
  | cons title titles =>
    obtain ⟨members, hmem, -⟩ := h
    cases hmem

theorem fits_nil (titles : List String) : Fits titles [] := by
  cases titles with
  | nil => exact True.intro
  | cons title titles => exact .inl fun members hmem => nomatch hmem

/-- Groups lead down only by titles by which they did before, or by those of the path. -/
theorem leads_of_leads_insert {path : String} : ∀ {titles way : List String} {groups : List Group},
    Leads way (insert path titles groups) → Leads way groups ∨ way <+: titles
  | _, [], _, _ => .inr List.nil_prefix
  | [], title :: way, groups, h => by
    obtain ⟨members, hmem, hway⟩ := h
    rw [insert, List.mem_append, List.mem_singleton] at hmem
    rcases hmem with hmem | heq
    · exact .inl ⟨members, hmem, hway⟩
    · cases heq
  | first :: titles, title :: way, groups, h => by
    obtain ⟨members, hmem, hway⟩ := h
    rw [insert] at hmem
    rcases mem_upsert hmem with hmem | ⟨rfl, rfl | ⟨old, hold, rfl⟩⟩
    · exact .inl ⟨members, hmem, hway⟩
    · rcases leads_of_leads_insert hway with hnone | hprefix
      · rw [not_leads_nil hnone]
        exact .inr (by simp)
      · exact .inr (List.cons_prefix_cons.2 ⟨rfl, hprefix⟩)
    · rcases leads_of_leads_insert hway with hold' | hprefix
      · exact .inl ⟨old, hold, hold'⟩
      · exact .inr (List.cons_prefix_cons.2 ⟨rfl, hprefix⟩)

/-- Titles fit when the groups lead down by them only where the last groups do. -/
theorem fits_of_atEnd : ∀ {titles last : List String} {groups : List Group},
    AtEnd last groups → (∀ way, way <+: titles → Leads way groups → way <+: last) →
      Fits titles groups
  | [], _, _, _, _ => True.intro
  | title :: titles, last, groups, hend, hlast => by
    by_cases hnew : New title groups
    · exact .inl hnew
    · obtain ⟨inner, hinner⟩ := not_forall_not.1 hnew
      have hfirst : [title] <+: last :=
        hlast [title] (by simp) ⟨inner, hinner, True.intro⟩
      obtain ⟨rest, rfl⟩ := hfirst
      obtain ⟨front, members, rfl, hfront, hrest⟩ := hend
      refine .inr ⟨front, members, rfl, hfront, fits_of_atEnd hrest fun way hway hleads => ?_⟩
      have hlonger := hlast (title :: way) (List.cons_prefix_cons.2 ⟨rfl, hway⟩)
        ⟨members, by simp, hleads⟩
      exact (List.cons_prefix_cons.1 hlonger).2

/-- A path that fits is put at the end, and then its titles lead down the last groups. -/
theorem leavesAll_insert (path : String) : ∀ {titles : List String} {groups : List Group},
    Fits titles groups → leavesAll (insert path titles groups) = leavesAll groups ++ [path] ∧
      AtEnd titles (insert path titles groups)
  | [], groups, _ => by
    refine ⟨?_, True.intro⟩
    rw [insert, leavesAll_append, leavesAll, leaves, leavesAll, List.append_nil]
  | title :: titles, groups, hfits => by
    rcases hfits with hnew | ⟨front, members, rfl, hfront, hmembers⟩
    · obtain ⟨hleaves, hend⟩ := leavesAll_insert path (fits_nil titles)
      rw [insert, upsert_of_new hnew, leavesAll_concat_group, hleaves]
      exact ⟨rfl, groups, _, rfl, hnew, hend⟩
    · obtain ⟨hleaves, hend⟩ := leavesAll_insert path hmembers
      rw [insert, upsert_concat hfront, leavesAll_concat_group, leavesAll_concat_group, hleaves,
        List.append_assoc]
      exact ⟨rfl, front, _, rfl, hfront, hend⟩

/-! ## Growing the groups -/

/-- Nothing is lost and nothing is put in twice. -/
theorem leavesAll_grown_perm (paths : List String) : (leavesAll (grown paths)).Perm paths := by
  induction paths using List.reverseRecOn with
  | nil => exact .nil
  | append_singleton paths path ih =>
    rw [grown_concat]
    have hinsert := leavesAll_insert_perm path (directoryTitles path) (grown paths)
    exact hinsert.trans ((ih.cons path).trans (List.perm_append_singleton path paths).symm)

end Group

/-- Paths under common titles stand together: what two of them have in common is also had
by the path before the second. -/
def Together (paths : List String) : Prop :=
  ∀ earlier last path later, paths = earlier ++ last :: path :: later →
    ∀ other ∈ earlier, ∀ way, way <+: directoryTitles other → way <+: directoryTitles path →
      way <+: directoryTitles last

theorem Together.of_append {paths others : List String} (h : Together (paths ++ others)) :
    Together paths := by
  intro earlier last path later hpaths
  exact h earlier last path (later ++ others) (by rw [hpaths]; simp)

namespace Group

/-- What has become of paths that stood together. -/
structure Grown (paths : List String) (groups : List Group) : Prop where
  leaves : leavesAll groups = paths
  atEnd : ∀ last ∈ paths.getLast?, AtEnd (directoryTitles last) groups
  leads : ∀ way, Leads way groups → way = [] ∨ ∃ path ∈ paths, way <+: directoryTitles path

/-- One more path is put at the end, if it has no more in common with earlier paths than
with the last one. -/
theorem Grown.insert {paths : List String} {groups : List Group} (h : Grown paths groups)
    {path : String} (htogether : Together (paths ++ [path])) :
    Grown (paths ++ [path]) (insert path (directoryTitles path) groups) := by
  have hfits : Fits (directoryTitles path) groups := by
    rcases List.eq_nil_or_concat' paths with rfl | ⟨earlier, last, rfl⟩
    · have hend : AtEnd [] groups := True.intro
      refine fits_of_atEnd hend fun way _ hleads => ?_
      rcases h.leads way hleads with rfl | ⟨other, hother, -⟩
      · exact List.prefix_rfl
      · cases hother
    · refine fits_of_atEnd (h.atEnd last (by simp)) fun way hway hleads => ?_
      rcases h.leads way hleads with rfl | ⟨other, hother, hprefix⟩
      · exact List.nil_prefix
      · rcases List.mem_append.1 hother with hearlier | hlast
        · exact htogether earlier last path [] (by simp) other hearlier way hprefix hway
        · rwa [← List.mem_singleton.1 hlast]
  obtain ⟨hleaves, hend⟩ := leavesAll_insert path hfits
  constructor
  · rw [hleaves, h.leaves]
  · intro last hlast
    obtain rfl : path = last := by simpa using hlast
    exact hend
  · intro way hway
    rcases leads_of_leads_insert hway with hold | hnew
    · rcases h.leads way hold with rfl | ⟨other, hother, hprefix⟩
      · exact .inl rfl
      · exact .inr ⟨other, List.mem_append_left _ hother, hprefix⟩
    · exact .inr ⟨path, by simp, hnew⟩

theorem grown_of_together {paths : List String} (h : Together paths) :
    Grown paths (grown paths) := by
  induction paths using List.reverseRecOn with
  | nil => exact ⟨rfl, by simp, fun way hway => .inl (not_leads_nil hway)⟩
  | append_singleton paths path ih =>
    rw [grown_concat]
    exact (ih h.of_append).insert h

/-! ## As a specification -/

theorem arrangeItems_toSpecs (location : List Step) (n : Nat) : ∀ groups : List Group,
    arrangeItems location n (toSpecs groups) = .ok (Spec.entriesOfItems (toSpecs groups))
  | [] => by
    rw [toSpecs, arrangeItems]
    rfl
  | page path :: rest => by
    rw [toSpecs, toSpec, arrangeItems, arrangeItems_toSpecs location (n + 1) rest]
    rfl
  | group title members :: rest => by
    rw [toSpecs, toSpec, Spec.entry, arrangeItems, arrangeEntry,
      arrangeItems_toSpecs _ 0 members, arrangeItems_toSpecs location (n + 1) rest]
    rfl

mutual
theorem targets_toSpec : ∀ g : Group, g.toSpec.targets = g.leaves
  | page _ => rfl
  | group title members => by
    rw [toSpec, Spec.entry, Spec.targets, Spec.targetsOfEntries, Spec.targetsOfEntries,
      Spec.targets, targetsOfItems_toSpecs members, List.append_nil, leaves]

theorem targetsOfItems_toSpecs : ∀ groups : List Group,
    Spec.targetsOfItems (toSpecs groups) = leavesAll groups
  | [] => rfl
  | g :: rest => by
    rw [toSpecs, Spec.targetsOfItems, leavesAll, targets_toSpec g, targetsOfItems_toSpecs rest]
end

end Group

/-- An inferred specification is not refused. -/
theorem arrange_infer (paths : List String) :
    arrange [] (infer paths) = .ok (infer paths).entries := by
  rw [infer_eq, arrange, Group.arrangeItems_toSpecs]
  rfl

theorem targets_infer_eq (paths : List String) :
    (infer paths).targets = Group.leavesAll (Group.grown paths) := by
  rw [infer_eq]
  exact Group.targetsOfItems_toSpecs _

/-- **What is inferred has the paths that it is inferred from**, in some order. -/
theorem targets_infer_perm (paths : List String) : (infer paths).targets.Perm paths := by
  rw [targets_infer_eq]
  exact Group.leavesAll_grown_perm paths

/-- **Paths that stand together keep their order.** -/
theorem targets_infer {paths : List String} (h : Together paths) :
    (infer paths).targets = paths := by
  rw [targets_infer_eq]
  exact (Group.grown_of_together h).leaves

-- directories that share a title are merged, and what stood between them comes later
example : (infer ["a-b/x.md", "a.b/y.md", "a_b/z.md"]).targets =
    ["a-b/x.md", "a_b/z.md", "a.b/y.md"] := by
  decide +kernel

end Nav
end DocSite
