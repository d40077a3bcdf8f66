import DocSite.Proofs.Nav.Inference
import DocSite.Proofs.Path.Around

/-!
# Where inferred paths stand

An inferred arrangement is grown path by path, and a path goes down the groups of its
directories.  This module says what comes of it when all paths are in, without the steps:
every path stands once, under the titles of its directories (`titlesAround`); among
siblings no title occurs twice; no group is empty; and siblings stand in the order in
which they were met first (`IsTidy`).

A path may be given twice, and then it stands twice, so the order of siblings is not one
of paths but one of positions in the row of paths.  A `Plan` is an arrangement in which
the positions are kept.  Each path is put into the plan with its position, which is
greater than all before it, and the plan stays tidy (`exists_grows`): either the path opens
a group at the end, or it goes into a group that stands where it stood.
-/

namespace DocSite
namespace Nav

/-- The titles of the directories around a path, outermost first. -/
def titlesAround (path : String) : List String :=
  match (Path.mk path).parent? with
  | none => []
  | some dir => dir.components.map fun step =>
      titleOfName (if step = .root then "/" else step.piece)

theorem directoryTitles_eq (path : String) : directoryTitles path = titlesAround path := by
  rw [directoryTitles, ← Path.components_parent?, titlesAround]
  cases (Path.mk path).parent? <;> rfl

/-! ## Arrangements with positions -/

/-- An arrangement of paths in which each is known by its position, too. -/
inductive Plan where
  | page (leaf : String × Nat)
  | group (title : String) (members : List Plan)
  deriving Inhabited, Repr

namespace Plan

mutual
/-- A path as a leaf, a group as a mapping of its title to a list. -/
def toSpec : Plan → Spec
  | page leaf => .leaf leaf.1
  | group title members => .mapping [(title, .list (toSpecs members))]

/-- The members of a group in order. -/
def toSpecs : List Plan → List Spec
  | [] => []
  | p :: rest => p.toSpec :: toSpecs rest
end

mutual
/-- The leaves from left to right, each with the titles that lead to it. -/
def trails : Plan → List (List String × String × Nat)
  | page leaf => [([], leaf)]
  | group title members => (trailsAll members).map fun trail => (title :: trail.1, trail.2)

/-- The leaves of a row from left to right, each with the titles that lead to it. -/
def trailsAll : List Plan → List (List String × String × Nat)
  | [] => []
  | p :: rest => p.trails ++ trailsAll rest
end

/-- The positions of the paths that lie in an entry. -/
def positions (p : Plan) : List Nat :=
  p.trails.map fun trail => trail.2.2

/-- The title of an entry, if it is a group. -/
def title? : Plan → Option String
  | page _ => none
  | group title _ => some title

/-- The first path that lies in an entry was given before every path in another one. -/
def Before (p q : Plan) : Prop :=
  ∀ n ∈ q.positions, ∃ m ∈ p.positions, m < n

/-- No two siblings have one title, siblings stand in the order of their first paths, and no
group is empty, at every depth. -/
inductive IsTidy : List Plan → Prop where
  | intro {plan : List Plan} (titles : (plan.filterMap title?).Nodup)
      (ordered : plan.Pairwise Before)
      (filled : ∀ title members, group title members ∈ plan → members ≠ [])
      (inner : ∀ title members, group title members ∈ plan → IsTidy members) : IsTidy plan

/-! ## The leaves of a row -/

theorem trailsAll_append (plan others : List Plan) :
    trailsAll (plan ++ others) = trailsAll plan ++ trailsAll others := by
  induction plan with
  | nil => rfl
  | cons p rest ih => rw [List.cons_append, trailsAll, trailsAll, ih, List.append_assoc]

theorem trailsAll_singleton (p : Plan) : trailsAll [p] = p.trails := by
  rw [trailsAll, trailsAll, List.append_nil]

theorem mem_trailsAll_iff {plan : List Plan} {trail : List String × String × Nat} :
    trail ∈ trailsAll plan ↔ ∃ p ∈ plan, trail ∈ p.trails := by
  induction plan with
  | nil => simp [trailsAll]
  | cons p rest ih => rw [trailsAll, List.mem_append, ih, List.exists_mem_cons_iff]

theorem positions_group (title : String) (members : List Plan) :
    (group title members).positions = (trailsAll members).map fun trail => trail.2.2 := by
  rw [positions, trails, List.map_map]
  rfl

/-- The positions in a group are those of its members. -/
theorem mem_positions_group {title : String} {members : List Plan} {n : Nat} :
    n ∈ (group title members).positions ↔ ∃ p ∈ members, n ∈ p.positions := by
  rw [positions_group]
  simp only [positions, List.mem_map, mem_trailsAll_iff]
  constructor
  · rintro ⟨trail, ⟨p, hp, htrail⟩, rfl⟩
    exact ⟨p, hp, trail, htrail, rfl⟩
  · rintro ⟨p, hp, trail, htrail, rfl⟩
    exact ⟨trail, ⟨p, hp, htrail⟩, rfl⟩

theorem isTidy_nil : IsTidy [] :=
  .intro .nil .nil nofun nofun

/-- In a tidy row every entry has a path in it. -/
theorem IsTidy.exists_mem_positions {plan : List Plan} (h : IsTidy plan) :
    ∀ p ∈ plan, ∃ n, n ∈ p.positions := by
  induction h with
  | intro _ _ filled _ ih =>
    intro p hp
    cases p with
    | page leaf => exact ⟨leaf.2, List.mem_singleton_self _⟩
    | group title members =>
      obtain ⟨first, rest, hmembers⟩ := List.exists_cons_of_ne_nil (filled title members hp)
      have hfirst : first ∈ members := hmembers ▸ List.mem_cons_self ..
      obtain ⟨n, hn⟩ := ih title members hp first hfirst
      exact ⟨n, mem_positions_group.2 ⟨first, hfirst, hn⟩⟩

/-! ## Without the positions -/

mutual
/-- The arrangement without the positions. -/
def toGroup : Plan → Group
  | page leaf => .page leaf.1
  | group title members => .group title (toGroups members)

/-- A row without the positions. -/
def toGroups : List Plan → List Group
  | [] => []
  | p :: rest => p.toGroup :: toGroups rest
end

theorem toGroups_eq_map (plan : List Plan) : toGroups plan = plan.map toGroup := by
  induction plan with
  | nil => rfl
  | cons p rest ih => rw [toGroups, ih, List.map_cons]

mutual
theorem toSpec_toGroup : ∀ p : Plan, p.toGroup.toSpec = p.toSpec
  | page _ => rfl
  | group title members => by
    rw [toGroup, Group.toSpec, toSpecs_toGroups members, Spec.entry, toSpec]

theorem toSpecs_toGroups : ∀ plan : List Plan, Group.toSpecs (toGroups plan) = toSpecs plan
  | [] => rfl
  | p :: rest => by
    rw [toGroups, Group.toSpecs, toSpec_toGroup p, toSpecs_toGroups rest, toSpecs]
end

mutual
theorem leaves_toGroup : ∀ p : Plan, p.toGroup.leaves = p.trails.map fun trail => trail.2.1
  | page _ => rfl
  | group title members => by
    rw [toGroup, Group.leaves, leavesAll_toGroups members, trails, List.map_map]
    rfl

theorem leavesAll_toGroups : ∀ plan : List Plan,
    Group.leavesAll (toGroups plan) = (trailsAll plan).map fun trail => trail.2.1
  | [] => rfl
  | p :: rest => by
    rw [toGroups, Group.leavesAll, leaves_toGroup p, leavesAll_toGroups rest, trailsAll,
      List.map_append]
end

theorem exists_eq_group_of_toGroup {p : Plan} {title : String} {members : List Group}
    (h : p.toGroup = .group title members) :
    ∃ inner, p = group title inner ∧ toGroups inner = members := by
  cases p with
  | page leaf => cases h
  | group other inner =>
    obtain ⟨rfl, rfl⟩ := Group.group.inj h
    exact ⟨inner, rfl, rfl⟩

/-- A title that is new to a row is not among the titles there. -/
theorem notMem_titles_of_new {title : String} {plan : List Plan}
    (h : Group.New title (toGroups plan)) : title ∉ plan.filterMap title? := by
  intro hmem
  obtain ⟨p, hp, htitle⟩ := List.mem_filterMap.1 hmem
  cases p with
  | page leaf => cases htitle
  | group other members =>
    obtain rfl := Option.some.inj htitle
    refine h (toGroups members) ?_
    rw [toGroups_eq_map]
    exact List.mem_map_of_mem hp

/-! ## One path more -/

/-- An entry that holds only a later path may stand at the end of a tidy row. -/
theorem IsTidy.concat {plan : List Plan} (h : IsTidy plan) {p : Plan} {n : Nat}
    (hbelow : ∀ q ∈ plan, ∀ m ∈ q.positions, m < n) (hlater : ∀ m ∈ p.positions, m = n)
    (htitle : ∀ title ∈ p.title?, title ∉ plan.filterMap title?)
    (hfilled : ∀ title members, group title members = p → members ≠ [] ∧ IsTidy members) :
    IsTidy (plan ++ [p]) := by
  have hentries := h.exists_mem_positions
  obtain ⟨htitles, hordered, hplan, hinner⟩ := h
  refine .intro ?_ ?_ ?_ ?_
  · rw [List.filterMap_append, List.nodup_append]
    refine ⟨htitles, ?_, fun title hmem other hother => ?_⟩
    · cases p with
      | page leaf => exact .nil
      | group title members => exact List.pairwise_singleton _ _
    · rintro rfl
      rw [List.mem_filterMap] at hother
      obtain ⟨q, hq, hother⟩ := hother
      rw [List.mem_singleton.1 hq] at hother
      exact htitle title hother hmem
  · rw [List.pairwise_append]
    refine ⟨hordered, List.pairwise_singleton _ _, fun q hq r hr m hm => ?_⟩
    obtain rfl := List.mem_singleton.1 hr
    obtain ⟨k, hk⟩ := hentries q hq
    exact ⟨k, hk, hlater m hm ▸ hbelow q hq k hk⟩
  · intro title members hmem
    rcases List.mem_append.1 hmem with hmem | hmem
    · exact hplan title members hmem
    · exact (hfilled title members (List.mem_singleton.1 hmem)).1
  · intro title members hmem
    rcases List.mem_append.1 hmem with hmem | hmem
    · exact hinner title members hmem
    · exact (hfilled title members (List.mem_singleton.1 hmem)).2

/-- A group of a tidy row may take in a later path. -/
theorem IsTidy.replace {front back members grown : List Plan} {title : String}
    (h : IsTidy (front ++ group title members :: back)) {n : Nat}
    (hbelow : ∀ q ∈ front, ∀ m ∈ q.positions, m < n)
    (hgrown : ∀ m, m ∈ (group title grown).positions ↔
      m = n ∨ m ∈ (group title members).positions)
    (hfilled : grown ≠ []) (htidy : IsTidy grown) :
    IsTidy (front ++ group title grown :: back) := by
  have hentries := h.exists_mem_positions
  obtain ⟨htitles, hordered, hplan, hinner⟩ := h
  have hmem : ∀ other inner, group other inner ∈ front ++ group title grown :: back →
      inner = grown ∨ group other inner ∈ front ++ group title members :: back := by
    intro other inner hmem
    rw [List.mem_append, List.mem_cons] at hmem ⊢
    rcases hmem with hmem | heq | hmem
    · exact .inr (.inl hmem)
    · exact .inl (group.inj heq).2
    · exact .inr (.inr (.inr hmem))
  refine .intro ?_ ?_ ?_ ?_
  · rw [List.filterMap_append] at htitles ⊢
    exact htitles
  · rw [List.pairwise_append, List.pairwise_cons] at hordered ⊢
    obtain ⟨hfront, ⟨hgroup, hback⟩, hacross⟩ := hordered
    refine ⟨hfront, ⟨fun q hq m hm => ?_, hback⟩, fun q hq r hr m hm => ?_⟩
    · obtain ⟨k, hk, hlt⟩ := hgroup q hq m hm
      exact ⟨k, (hgrown k).2 (.inr hk), hlt⟩
    · rcases List.mem_cons.1 hr with rfl | hr
      · rcases (hgrown m).1 hm with rfl | hm
        · obtain ⟨k, hk⟩ := hentries q (List.mem_append_left _ hq)
          exact ⟨k, hk, hbelow q hq k hk⟩
        · exact hacross q hq _ (List.mem_cons_self ..) m hm
      · exact hacross q hq r (List.mem_cons_of_mem _ hr) m hm
  · intro other inner hother
    rcases hmem other inner hother with rfl | hold
    · exact hfilled
    · exact hplan other inner hold
  · intro other inner hother
    rcases hmem other inner hother with rfl | hold
    · exact htidy
    · exact hinner other inner hold

/-- One path more, which was put under some titles, has made another plan out of a plan. -/
structure Grows (plan : List Plan) (titles : List String) (leaf : String × Nat)
    (grown : List Plan) : Prop where
  groups : toGroups grown = Group.insert leaf.1 titles (toGroups plan)
  leaves : (trailsAll grown).Perm ((titles, leaf) :: trailsAll plan)
  tidy : IsTidy grown

namespace Grows

variable {plan grown : List Plan} {titles : List String} {leaf : String × Nat} {title : String}

theorem ne_nil (h : Grows plan titles leaf grown) : grown ≠ [] := by
  rintro rfl
  exact List.not_mem_nil (h.leaves.mem_iff.2 (List.mem_cons_self ..))

/-- The positions in a group to which a path was added. -/
theorem mem_positions_group_iff (h : Grows plan titles leaf grown) (title : String) (m : Nat) :
    m ∈ (group title grown).positions ↔ m = leaf.2 ∨ m ∈ (group title plan).positions := by
  rw [positions_group, positions_group, (h.leaves.map _).mem_iff, List.map_cons, List.mem_cons]

/-- A path of the row itself is put at the end. -/
theorem concat_page (h : IsTidy plan) (hbelow : ∀ q ∈ plan, ∀ m ∈ q.positions, m < leaf.2) :
    Grows plan [] leaf (plan ++ [page leaf]) where
  groups := by
    rw [toGroups_eq_map, toGroups_eq_map, List.map_append, Group.insert]
    rfl
  leaves := by
    rw [trailsAll_append, trailsAll_singleton]
    exact List.perm_append_singleton _ _
  tidy := h.concat hbelow (fun m hm => List.mem_singleton.1 hm) (fun _ => nofun) fun _ _ => nofun

/-- A path under a new title opens a group at the end. -/
theorem concat_group (h : IsTidy plan) (hbelow : ∀ q ∈ plan, ∀ m ∈ q.positions, m < leaf.2)
    (hnew : Group.New title (toGroups plan)) (hgrown : Grows [] titles leaf grown) :
    Grows plan (title :: titles) leaf (plan ++ [group title grown]) where
  groups := by
    rw [Group.insert, Group.upsert_of_new hnew, ← toGroups, ← hgrown.groups,
      toGroups_eq_map, toGroups_eq_map plan, List.map_append]
    rfl
  leaves := by
    have hinner : (trailsAll grown).Perm [(titles, leaf)] := hgrown.leaves
    rw [trailsAll_append, trailsAll_singleton, Plan.trails]
    exact ((hinner.map _).append_left _).trans (List.perm_append_singleton _ _)
  tidy := by
    refine h.concat hbelow (fun m hm => ?_) (fun other hother => ?_) fun other members heq => ?_
    · refine ((hgrown.mem_positions_group_iff title m).1 hm).resolve_right fun hnone => ?_
      obtain ⟨p, hp, -⟩ := mem_positions_group.1 hnone
      exact List.not_mem_nil hp
    · rw [← Option.some.inj hother]
      exact notMem_titles_of_new hnew
    · rw [(group.inj heq).2]
      exact ⟨hgrown.ne_nil, hgrown.tidy⟩

/-- A path under a known title goes into the group of this title. -/
theorem replace {front back members : List Plan}
    (h : IsTidy (front ++ group title members :: back))
    (hbelow : ∀ q ∈ front, ∀ m ∈ q.positions, m < leaf.2)
    (hnew : Group.New title (toGroups front)) (hgrown : Grows members titles leaf grown) :
    Grows (front ++ group title members :: back) (title :: titles) leaf
      (front ++ group title grown :: back) where
  groups := by
    rw [toGroups_eq_map] at hnew
    rw [toGroups_eq_map, toGroups_eq_map, List.map_append, List.map_append, List.map_cons,
      List.map_cons, Group.insert, Group.upsert_append hnew, toGroup, toGroup, Group.upsert,
      if_pos rfl, hgrown.groups]
  leaves := by
    rw [trailsAll_append, trailsAll_append, trailsAll, trailsAll, Plan.trails, Plan.trails]
    have hinner := hgrown.leaves.map fun trail => (title :: trail.1, trail.2)
    rw [List.map_cons] at hinner
    exact ((hinner.append_right _).append_left _).trans List.perm_middle
  tidy := h.replace hbelow (hgrown.mem_positions_group_iff title) hgrown.ne_nil hgrown.tidy

end Grows

/-- **A path that is put in keeps a plan tidy**, when its position is greater than all
before it. -/
theorem exists_grows (leaf : String × Nat) (titles : List String) {plan : List Plan}
    (h : IsTidy plan) (hbelow : ∀ q ∈ plan, ∀ m ∈ q.positions, m < leaf.2) :
    ∃ grown, Grows plan titles leaf grown := by
  induction titles generalizing plan with
  | nil => exact ⟨_, .concat_page h hbelow⟩
  | cons title titles ih =>
    rcases Group.new_or_exists_first title (toGroups plan) with
      hnew | ⟨front, members, back, hplan, hnew⟩
    · obtain ⟨grown, hgrown⟩ := ih isTidy_nil fun _ => nofun
      exact ⟨_, .concat_group h hbelow hnew hgrown⟩
    · rw [toGroups_eq_map, List.map_eq_append_iff] at hplan
      obtain ⟨front, rest, rfl, rfl, hrest⟩ := hplan
      obtain ⟨p, back, rfl, hp, rfl⟩ := List.map_eq_cons_iff.1 hrest
      obtain ⟨inner, rfl, rfl⟩ := exists_eq_group_of_toGroup hp
      have hgroup : group title inner ∈ front ++ group title inner :: back :=
        List.mem_append_right _ (List.mem_cons_self ..)
      have hinner : IsTidy inner := by
        obtain ⟨-, -, -, hinner⟩ := h
        exact hinner title inner hgroup
      obtain ⟨grown, hgrown⟩ := ih hinner fun q hq m hm =>
        hbelow _ hgroup m (mem_positions_group.2 ⟨q, hq, hm⟩)
      rw [← toGroups_eq_map] at hnew
      exact ⟨_, .replace h (fun q hq => hbelow q (List.mem_append_left _ hq)) hnew hgrown⟩

/-! ## All paths -/

/-- The plan of a row of paths: every path stands in it once, with its position and under
the titles of its directories. -/
structure IsPlanOf (plan : List Plan) (paths : List String) : Prop where
  trails : (trailsAll plan).Perm
    (paths.zipIdx.map fun leaf => (titlesAround leaf.1, leaf))
  tidy : IsTidy plan

theorem IsPlanOf.lt_length {plan : List Plan} {paths : List String} (h : IsPlanOf plan paths) :
    ∀ q ∈ plan, ∀ m ∈ q.positions, m < paths.length := by
  intro q hq m hm
  obtain ⟨trail, htrail, rfl⟩ := List.mem_map.1 hm
  have hmem := h.trails.mem_iff.1 (mem_trailsAll_iff.2 ⟨q, hq, htrail⟩)
  obtain ⟨leaf, hleaf, rfl⟩ := List.mem_map.1 hmem
  exact List.snd_lt_of_mem_zipIdx hleaf

theorem exists_isPlanOf_grown (paths : List String) :
    ∃ plan, toGroups plan = Group.grown paths ∧ IsPlanOf plan paths := by
  induction paths using List.reverseRecOn with
  | nil => exact ⟨[], rfl, .nil, isTidy_nil⟩
  | append_singleton paths path ih =>
    obtain ⟨plan, hgroups, hplan⟩ := ih
    obtain ⟨grown, hgrown⟩ := exists_grows (path, paths.length) (titlesAround path) hplan.tidy
      hplan.lt_length
    refine ⟨grown, ?_, ?_, hgrown.tidy⟩
    · rw [hgrown.groups, hgroups, Group.grown_concat, directoryTitles_eq]
    · rw [List.zipIdx_append, Nat.zero_add, List.map_append]
      exact hgrown.leaves.trans ((hplan.trails.cons _).trans
        (List.perm_append_singleton _ _).symm)

/-- **What is inferred from paths.**  It is a list whose leaves from left to right are the
paths in some order, each as often as it is given.  Each leaf stands under the titles of the
directories around its path.  Every group is a mapping of one title to a list that is not
empty, no two siblings have one title, and siblings stand in the order of the first paths
that lie in them. -/
theorem exists_isPlanOf_infer (paths : List String) :
    ∃ plan, infer paths = .list (toSpecs plan) ∧
      (infer paths).targets = (trailsAll plan).map (fun trail => trail.2.1) ∧
      (infer paths).targets.Perm paths ∧ IsPlanOf plan paths := by
  obtain ⟨plan, hgroups, hplan⟩ := exists_isPlanOf_grown paths
  refine ⟨plan, ?_, ?_, targets_infer_perm paths, hplan⟩
  · rw [← toSpecs_toGroups, hgroups, infer_eq]
  · rw [targets_infer_eq, ← hgroups, leavesAll_toGroups]

-- directories that share a title are one group, and a path that is given twice stands twice
example : infer ["a.md", "my-dir/b.md", "a.md", "./c.md", "my_dir/d.md"] =
    .list [.leaf "a.md", .mapping [("My dir", .list [.leaf "my-dir/b.md", .leaf "my_dir/d.md"])],
      .leaf "a.md", .mapping [(".", .list [.leaf "./c.md"])]] := by
  decide +kernel

end Plan

end Nav
end DocSite
