import Mathlib.Data.List.Induction
import DocSite.Nav.Inference

/-!
# Folders as rows of groups

A folder keeps its folders apart from the slots that say where they come.  Read together
they are one row, of pages and of groups with their members (`Group`), and this is the
form in which proofs have them.

The two lists go together when there are as many marks as folders, and so in every folder
below (`Folder.IsAligned`).  This holds of the empty folder and is kept by every insertion
(`Folder.IsAligned.insert`).  And then inserting a path into a folder is inserting it into
the row: the first group of a title is changed, or a new one opened at the end
(`Folder.toGroups_insert`).  So what is inferred from paths is the row that they are grown
into (`infer_eq`).
-/

namespace DocSite
namespace Nav

/-- Pages and the sections that they are grouped under, in order. -/
inductive Group where
  | page (path : String)
  | group (title : String) (members : List Group)
  deriving Inhabited, Repr

namespace Group

/-- The first group of a title changed, or a new one opened at the end. -/
def upsert (title : String) (change : List Group → List Group) : List Group → List Group
  | [] => [group title (change [])]
  | group other members :: rest =>
    if other = title then group title (change members) :: rest
    else group other members :: upsert title change rest
  | page path :: rest => page path :: upsert title change rest

/-- A page put at the end of the group that the titles lead to. -/
def insert (path : String) : List String → List Group → List Group
  | [], groups => groups ++ [page path]
  | title :: titles, groups => upsert title (insert path titles) groups

mutual
/-- A page as a leaf, a group as a titled list. -/
def toSpec : Group → Spec
  | page path => .leaf path
  | group title members => .entry title (.list (toSpecs members))

/-- The members of a group in order. -/
def toSpecs : List Group → List Spec
  | [] => []
  | g :: rest => g.toSpec :: toSpecs rest
end

/-- The groups that paths are grown into. -/
def grown (paths : List String) : List Group :=
  paths.foldl (fun groups path => insert path (directoryTitles path) groups) []

theorem grown_concat (paths : List String) (path : String) :
    grown (paths ++ [path]) = insert path (directoryTitles path) (grown paths) := by
  rw [grown, List.foldl_append]
  rfl

theorem toSpecs_eq_map (groups : List Group) : toSpecs groups = groups.map toSpec := by
  induction groups with
  | nil => rfl
  | cons g rest ih => rw [toSpecs, ih, List.map_cons]

end Group

namespace Folder

/-! ## Slots and what fills them -/

variable {α β : Type} {page : String → α} {slots : List Slot}

theorem map_fill (f : α → β) (slots : List Slot) (folders : List α) :
    (fill page slots folders).map f = fill (f ∘ page) slots (folders.map f) := by
  induction slots generalizing folders with
  | nil => rfl
  | cons slot slots ih =>
    cases slot with
    | page path => exact congrArg (f (page path) :: ·) (ih folders)
    | folder =>
      cases folders with
      | nil => exact ih []
      | cons first rest => exact congrArg (f first :: ·) (ih rest)

theorem fill_append_page (path : String) (folders : List α) :
    fill page (slots ++ [.page path]) folders = fill page slots folders ++ [page path] := by
  induction slots generalizing folders with
  | nil => rfl
  | cons slot slots ih =>
    cases slot with
    | page other => exact congrArg (page other :: ·) (ih folders)
    | folder =>
      cases folders with
      | nil => exact ih []
      | cons first rest => exact congrArg (first :: ·) (ih rest)

/-- A new folder behind as many others as there are marks comes at a new mark at the end. -/
theorem fill_append_folder {folders : List α} (h : slots.count .folder = folders.length)
    (last : α) :
    fill page (slots ++ [.folder]) (folders ++ [last]) = fill page slots folders ++ [last] := by
  induction slots generalizing folders with
  | nil =>
    obtain rfl := List.length_eq_zero_iff.1 h.symm
    rfl
  | cons slot slots ih =>
    cases slot with
    | page path => exact congrArg (page path :: ·) (ih (by simpa using h))
    | folder =>
      cases folders with
      | nil => simp at h
      | cons first rest => exact congrArg (first :: ·) (ih (by simpa using h))

/-- The first group of a title is that of the first folder of this title; where there is
none, a group is opened behind the others. -/
theorem upsert_fill (title : String) (change : List Group → List Group)
    {folders : List (String × List Group)} (h : slots.count .folder = folders.length) :
    Group.upsert title change (fill .page slots (folders.map fun f => .group f.1 f.2)) =
      match folders.findIdx? fun f => f.1 = title with
      | some n => fill .page slots
          ((folders.modify n fun f => (f.1, change f.2)).map fun f => .group f.1 f.2)
      | none => fill .page slots (folders.map fun f => .group f.1 f.2) ++
          [.group title (change [])] := by
  induction slots generalizing folders with
  | nil =>
    obtain rfl := List.length_eq_zero_iff.1 h.symm
    rfl
  | cons slot slots ih =>
    cases slot with
    | page path =>
      rw [fill, Group.upsert, ih (by simpa using h)]
      cases folders.findIdx? fun f => f.1 = title <;> rfl
    | folder =>
      cases folders with
      | nil => simp at h
      | cons first rest =>
        rw [List.map_cons, fill, Group.upsert, List.findIdx?_cons]
        by_cases htitle : first.1 = title
        · rw [if_pos htitle, ← htitle]
          simp [fill]
        · rw [if_neg htitle, ih (by simpa using h)]
          cases hfind : rest.findIdx? fun f => f.1 = title <;> simp [htitle, fill]

/-! ## The marks and the folders go together -/

/-- There are as many marks as folders, here and in every folder below. -/
inductive IsAligned : Folder → Prop
  | mk {slots : List Slot} {folders : List (String × Folder)}
      (count_eq : slots.count .folder = folders.length)
      (below : ∀ f ∈ folders, IsAligned f.2) : IsAligned ⟨slots, folders⟩

theorem isAligned_empty : IsAligned empty :=
  .mk rfl fun _ => nofun

/-- **Insertion keeps marks and folders together.** -/
theorem IsAligned.insert {folder : Folder} (h : folder.IsAligned) (path : String)
    (titles : List String) : (insert path titles folder).IsAligned := by
  induction titles generalizing folder with
  | nil =>
    obtain ⟨hcount, hbelow⟩ := h
    exact .mk (by simpa using hcount) hbelow
  | cons title titles ih =>
    obtain @⟨slots, folders, hcount, hbelow⟩ := h
    rw [Folder.insert]
    split
    · rename_i n hfind
      obtain ⟨hn, -⟩ := List.findIdx?_eq_some_iff_getElem.1 hfind
      obtain ⟨front, f, back, rfl, -, hmodify⟩ := List.exists_of_modify
        (fun f : String × Folder => (f.1, Folder.insert path titles f.2)) hn
      rw [hmodify]
      refine .mk (by simpa using hcount) fun g hg => ?_
      rcases List.mem_append.1 hg with hg | hg
      · exact hbelow g (List.mem_append_left _ hg)
      · rcases List.mem_cons.1 hg with rfl | hg
        · exact ih (hbelow f (by simp))
        · exact hbelow g (by simp [hg])
    · refine .mk (by simpa using hcount) fun g hg => ?_
      rcases List.mem_append.1 hg with hg | hg
      · exact hbelow g hg
      · rw [List.mem_singleton.1 hg]
        exact ih isAligned_empty

/-! ## As a row of groups -/

mutual
/-- A folder as a row of pages and groups. -/
def toGroups : Folder → List Group
  | ⟨slots, folders⟩ => fill .page slots ((toMembers folders).map fun f => .group f.1 f.2)

/-- Titled folders as titled rows. -/
def toMembers : List (String × Folder) → List (String × List Group)
  | [] => []
  | f :: rest => toMember f :: toMembers rest

/-- A titled folder as a titled row. -/
def toMember : String × Folder → String × List Group
  | (title, folder) => (title, folder.toGroups)
end

theorem toMembers_eq_map (folders : List (String × Folder)) :
    toMembers folders = folders.map fun f => (f.1, f.2.toGroups) := by
  induction folders with
  | nil => rfl
  | cons f rest ih =>
    obtain ⟨title, folder⟩ := f
    rw [toMembers, toMember, ih, List.map_cons]

theorem map_modify {f : α → α} {f' : β → β} {g : α → β} {row : List α} (n : Nat)
    (h : ∀ a ∈ row, g (f a) = f' (g a)) : (row.modify n f).map g = (row.map g).modify n f' := by
  induction row generalizing n with
  | nil => cases n <;> rfl
  | cons a rest ih =>
    obtain ⟨hfirst, hrest⟩ := List.forall_mem_cons.1 h
    cases n with
    | zero => simp [hfirst]
    | succ n => simp [ih n hrest]

/-- **Inserting a path into a folder is inserting it into the row.** -/
theorem toGroups_insert {folder : Folder} (h : folder.IsAligned) (path : String)
    (titles : List String) :
    (insert path titles folder).toGroups = Group.insert path titles folder.toGroups := by
  induction titles generalizing folder with
  | nil =>
    obtain @⟨slots, folders, -, -⟩ := h
    exact fill_append_page path _
  | cons title titles ih =>
    obtain @⟨slots, folders, hcount, hbelow⟩ := h
    have hmember : ∀ f ∈ folders, (f.1, (insert path titles f.2).toGroups) =
        (f.1, Group.insert path titles f.2.toGroups) :=
      fun f hf => congrArg (Prod.mk f.1) (ih (hbelow f hf))
    have hlength : slots.count .folder = (toMembers folders).length := by
      rw [toMembers_eq_map, List.length_map, hcount]
    have hfind : (toMembers folders).findIdx? (fun f => f.1 = title) =
        folders.findIdx? fun f => f.1 = title := by
      rw [toMembers_eq_map, List.findIdx?_map]
      rfl
    rw [toGroups, Group.insert, upsert_fill title _ hlength, hfind, insert]
    cases folders.findIdx? fun f => f.1 = title with
    | some n =>
      have hmodify : toMembers (folders.modify n fun f => (f.1, insert path titles f.2)) =
          (toMembers folders).modify n fun f => (f.1, Group.insert path titles f.2) := by
        rw [toMembers_eq_map, toMembers_eq_map]
        exact map_modify n hmember
      show fill Group.page slots ((toMembers _).map _) = _
      rw [hmodify]
    | none =>
      have happend : toMembers (folders ++ [(title, insert path titles empty)]) =
          toMembers folders ++ [(title, Group.insert path titles [])] := by
        rw [toMembers_eq_map, toMembers_eq_map, List.map_append, List.map_singleton,
          ih isAligned_empty]
        rfl
      show fill Group.page (slots ++ [.folder]) ((toMembers _).map _) = _
      rw [happend, List.map_append, List.map_singleton,
        fill_append_folder (by rw [hlength, List.length_map])]

mutual
theorem toSpec_eq : ∀ folder : Folder, folder.toSpec = .list (Group.toSpecs folder.toGroups)
  | ⟨slots, folders⟩ => by
    rw [toSpec, toGroups, Group.toSpecs_eq_map, map_fill, List.map_map, toEntries_eq folders]
    rfl

theorem toEntries_eq : ∀ folders : List (String × Folder),
    toEntries folders = (toMembers folders).map (Group.toSpec ∘ fun f => .group f.1 f.2)
  | [] => rfl
  | f :: rest => by
    rw [toEntries, toMembers, List.map_cons, toEntries_eq rest, toEntry_eq f]

theorem toEntry_eq : ∀ f : String × Folder,
    toEntry f = (Group.toSpec ∘ fun f => .group f.1 f.2) (toMember f)
  | (title, folder) => by
    rw [toEntry, toSpec_eq folder]
    rfl
end

/-! ## The folder that paths are put into -/

theorem grown_concat (paths : List String) (path : String) :
    grown (paths ++ [path]) = insert path (directoryTitles path) (grown paths) := by
  rw [grown, List.foldl_append]
  rfl

theorem isAligned_grown (paths : List String) : (grown paths).IsAligned := by
  induction paths using List.reverseRecOn with
  | nil => exact isAligned_empty
  | append_singleton paths path ih =>
    rw [grown_concat]
    exact ih.insert path _

theorem toGroups_grown (paths : List String) : (grown paths).toGroups = Group.grown paths := by
  induction paths using List.reverseRecOn with
  | nil => rfl
  | append_singleton paths path ih =>
    rw [grown_concat, Group.grown_concat, toGroups_insert (isAligned_grown paths), ih]

end Folder

/-- **What is inferred from paths is the row that they are grown into.** -/
theorem infer_eq (paths : List String) :
    infer paths = .list (Group.toSpecs (Group.grown paths)) := by
  rw [infer, Folder.toSpec_eq, Folder.toGroups_grown]

end Nav
end DocSite
