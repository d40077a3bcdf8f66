import Mathlib.Data.List.Induction
import Mathlib.Data.String.Basic
import DocSite.Proofs.FileSystem.Way
import DocSite.Proofs.Path.Spelling

/-!
# Paths without their detours

A path is made normal by name alone: a name and the `..` behind it go away together.  For
the operating system `..` is what lies around the place where the reading has come to,
and behind a link that is another place than the one in which the link lies.

So a step up is harmless where it takes back a name that is no link, and nothing else
can go wrong: if no step up of a path takes back a link (`TakesBackNoLink`), the normal
path leads to the same place (`locate_normalize`).  The names that are left are passed in
the same order, with as many links left to follow (`Way.of_detours`).
-/

namespace DocSite
namespace FileSystem

variable {fs : FileSystem} {budget left : Nat} {here place : Location}

/-! ## Ways of one piece -/

theorem not_isSought_of_skip {step : String} (h : step = "" ∨ step = ".") : ¬ IsSought step :=
  fun hsought => hsought.1 h

/-- An empty piece and `.` stay. -/
theorem Way.eq_of_skip {step : String} (hstep : step = "" ∨ step = ".")
    (h : Way fs budget here [step] left place) :
    fs.get? here = some .directory ∧ left = budget ∧ place = here := by
  cases h with
  | stay hdir _ hrest => cases hrest; exact ⟨hdir, rfl, rfl⟩
  | up => simp at hstep
  | down _ hsought => exact absurd hsought (not_isSought_of_skip hstep)
  | link _ hsought => exact absurd hsought (not_isSought_of_skip hstep)

/-- `..` goes to what lies around. -/
theorem Way.eq_of_up (h : Way fs budget here [".."] left place) :
    fs.get? here = some .directory ∧ left = budget ∧ place = here.dropLast := by
  cases h with
  | stay _ hstep => simp at hstep
  | up hdir hrest => cases hrest; exact ⟨hdir, rfl, rfl⟩
  | down _ hsought => exact absurd rfl hsought.2.1
  | link _ hsought => exact absurd rfl hsought.2.1

/-- A name that is no link goes down. -/
theorem Way.eq_of_name {name : String} (hname : IsLegalName name)
    (hlink : ∀ place target,
      fs.follow false budget here [name] ≠ .ok (.present place (.link target)))
    (h : Way fs budget here [name] left place) : left = budget ∧ place = here ++ [name] := by
  cases h with
  | stay _ hstep => exact absurd hstep (not_or.2 ⟨hname.1, hname.2.1⟩)
  | up => exact absurd rfl hname.2.2.1
  | down _ _ _ _ hrest => cases hrest; exact ⟨rfl, rfl⟩
  | @link _ _ _ _ _ target _ hdir hsought hentry =>
    refine absurd ?_ (hlink (here ++ [name]) target)
    rw [follow, hdir]
    simp only [hsought.1, hsought.2.1, Nat.not_lt.2 hsought.2.2, if_false, hentry]
    rfl

/-! ## Taking the detours out -/

/-- **A way without its detours.**  The names that are left on a stack lead to the same
place, if no name that is taken back is a link. -/
theorem Way.of_detours {stack : List Component} (hstack : IsNormalStack stack)
    (hstart : Way fs budget here (spelled stack) budget here)
    (hroot : .root ∈ stack → here = []) {steps : List String}
    (hfree : ∀ step ∈ steps, SlashFree step)
    (hback : ∀ front back, steps = front ++ ".." :: back → ∀ name below,
      front.foldl pushPiece stack = .name name :: below → ∀ place target,
        fs.follow false budget here (spelled (front.foldl pushPiece stack)) ≠
          .ok (.present place (.link target)))
    (h : Way fs budget here steps left place) :
    Way fs budget here (spelled (steps.foldl pushPiece stack)) left place := by
  induction steps using List.reverseRecOn generalizing left place with
  | nil =>
    cases h
    exact hstart
  | append_singleton front step ih =>
    obtain ⟨between, middle, hfront, hlast⟩ := h.exists_of_append
    have hfreeFront : ∀ step ∈ front, SlashFree step :=
      fun other hother => hfree other (List.mem_append_left _ hother)
    have hway :=
      ih hfreeFront (fun pre back heq => hback pre (back ++ [step]) (by simp [heq])) hfront
    have hnormal := isNormalStack_foldl hstack hfreeFront
    rw [List.foldl_append, List.foldl_cons, List.foldl_nil]
    obtain ⟨hskip, heq⟩ | ⟨rfl, ⟨htop, heq⟩ | ⟨name, below, hname, htop, heq⟩ | heq⟩ |
      ⟨-, heq⟩ := pushPiece_cases hnormal (hfree step (by simp)) <;> rw [heq]
    · obtain ⟨-, rfl, rfl⟩ := hlast.eq_of_skip hskip
      exact hway
    · -- nothing lies around the root
      have hhere : here = [] := hroot ((root_mem_foldl_iff hstack hfreeFront).1 (by simp [htop]))
      have hrootWay : Way fs budget here [""] between middle := by
        rw [htop] at hway
        exact hway
      obtain ⟨-, rfl, rfl⟩ := hrootWay.eq_of_skip (.inl rfl)
      obtain ⟨-, rfl, rfl⟩ := hlast.eq_of_up
      have hroot : middle.dropLast = middle := by rw [hhere, List.dropLast_nil]
      rwa [hroot]
    · -- the name on top is taken back, and it was no link
      have hnoLink := hback front [] rfl name below htop
      rw [htop, spelled_cons] at hway hnoLink
      obtain ⟨between', middle', hbelow, htopWay⟩ := hway.exists_of_append
      rw [hbelow.follow_append (.inl (List.cons_ne_nil _ _))] at hnoLink
      obtain ⟨rfl, rfl⟩ := htopWay.eq_of_name hname hnoLink
      obtain ⟨-, rfl, rfl⟩ := hlast.eq_of_up
      rwa [List.dropLast_concat]
    · rw [spelled_cons]
      exact hway.append hlast
    · rw [spelled_cons]
      exact hway.append hlast

/-! ## Normal paths -/

theorem IsReadable.of_sublist {p q : Path} (h : IsReadable p)
    (hsub : q.text.toList.Sublist p.text.toList) (hne : q.text ≠ "") : IsReadable q where
  not_cut hcut := h.not_cut (hsub.subset hcut)
  ne_empty := hne
  size_le := by
    have hsize := String.utf8Len_le_of_sublist hsub
    rw [← String.utf8ByteSize_ofList, ← String.utf8ByteSize_ofList, String.ofList_toList,
      String.ofList_toList] at hsize
    exact hsize.trans h.size_le

theorem IsReadable.normalize {p : Path} (h : IsReadable p) : IsReadable p.normalize := by
  by_cases hstack : p.stack = []
  · rw [Path.normalize_eq_of_stack_eq_nil hstack]
    exact ⟨by decide +kernel, by decide +kernel, by decide +kernel⟩
  · exact h.of_sublist (Path.toList_normalize_sublist hstack) p.text_normalize_ne_empty

theorem startOf_normalize (p : Path) (here : Location) :
    startOf p.normalize here = startOf p here := by
  rw [startOf, startOf, Path.isAbsolute_normalize]

@[simp] theorem get?_nil (fs : FileSystem) : fs.get? [] = some .directory := rfl

/-- No step up of a path takes back the name of a link: what is written before it leads,
without detours, to something else. -/
def TakesBackNoLink (fs : FileSystem) (p : Path) : Prop :=
  ∀ front back, pieces p.text = front ++ ".." :: back → ∀ place target,
    fs.resolve false (Path.mk (joined front)).normalize ≠ .ok (.present place (.link target))

/-- What is left on the stack before a step up, read piece by piece. -/
theorem TakesBackNoLink.follow_ne {p : Path} (h : fs.TakesBackNoLink p) (hread : IsReadable p)
    {front back : List String} (heq : pieces p.text = front ++ ".." :: back) {name : String}
    {below : List Component} (htop : front.foldl pushPiece p.start = .name name :: below)
    (place : Location) (target : String) :
    fs.follow false linkBudget (startOf p fs.cwd) (spelled (front.foldl pushPiece p.start)) ≠
      .ok (.present place (.link target)) := by
  have hfree : ∀ part ∈ front, SlashFree part := by
    intro part hpart
    exact slashFree_of_mem_pieces (by rw [heq]; exact List.mem_append_left _ hpart)
  have hstart : ∀ step, step ∈ p.start → step = .root := by
    rw [Path.start]
    split <;> simp
  have hname : .name name ∉ p.start := fun hmem => by simpa using hstart _ hmem
  have hne : front ≠ [] := by
    rintro rfl
    rw [List.foldl_nil] at htop
    exact hname (by simp [htop])
  have hempty : joined front ≠ "" := by
    intro hempty
    have hfront := pieces_joined hne hfree
    rw [hempty, pieces_empty] at hfront
    rw [← hfront, List.foldl_cons, List.foldl_nil, pushPiece_empty] at htop
    exact hname (by simp [htop])
  have htext : p.text = joined front ++ ("/" ++ joined (".." :: back)) := by
    rw [← joined_pieces p.text, heq, joined_append hne (List.cons_ne_nil _ _), String.append_assoc]
  have hstack : (Path.mk (joined front)).stack = front.foldl pushPiece p.start := by
    rw [Path.stack_eq, pieces_joined hne hfree,
      ← Path.start_append hempty ("/" ++ joined (".." :: back)), ← htext]
  have hreadFront : IsReadable (Path.mk (joined front)) := by
    refine hread.of_sublist ?_ hempty
    rw [htext, String.toList_append]
    exact List.sublist_append_left _ _
  have habsolute : startOf (Path.mk (joined front)).normalize fs.cwd = startOf p fs.cwd := by
    rw [startOf_normalize, startOf, startOf,
      ← Path.isAbsolute_append hempty ("/" ++ joined (".." :: back)), ← htext]
  have hresolve := h front back heq place target
  rwa [resolve_of_isReadable hreadFront.normalize, habsolute,
    Path.pieces_normalize (by simp [hstack, htop]) (by simp [hstack, htop]), hstack] at hresolve

theorem startOf_eq_nil_of_root_mem {p : Path} (h : .root ∈ p.start) (here : Location) :
    startOf p here = [] := by
  rw [Path.start] at h
  rw [startOf]
  split at h <;> simp_all

/-- **A path leads where its normal form leads**, if no step up takes back a link. -/
theorem locate_normalize {p : Path} {entry : Entry} (h : fs.locate p = .ok (place, entry))
    (hback : fs.TakesBackNoLink p) : fs.locate p.normalize = .ok (place, entry) := by
  obtain ⟨hread, ⟨left, hway⟩, hentry⟩ := locate_eq_ok_iff.1 h
  refine locate_eq_ok_iff.2 ⟨hread.normalize, ⟨left, ?_⟩, hentry⟩
  rw [startOf_normalize]
  have hdir := hway.get?_of_ne_nil (pieces_ne_nil _)
  have hstart : Way fs linkBudget (startOf p fs.cwd) (spelled p.start) linkBudget
      (startOf p fs.cwd) := by
    rw [Path.start]
    split
    · exact .stay hdir (.inl rfl) (.done _ _)
    · exact .done _ _
  have hplain : Way fs linkBudget (startOf p fs.cwd) (spelled p.stack) left place := by
    rw [Path.stack_eq]
    exact Way.of_detours p.isNormalStack_start hstart
      (fun hroot => startOf_eq_nil_of_root_mem hroot _) (fun _ => slashFree_of_mem_pieces)
      (fun front back heq name below htop => hback.follow_ne hread heq htop) hway
  by_cases hnil : p.stack = []
  · rw [Path.normalize_eq_of_stack_eq_nil hnil]
    rw [hnil] at hplain
    exact .stay hdir (.inr rfl) hplain
  by_cases hroot : p.stack = [.root]
  · rw [Path.normalize_eq_root_iff.2 hroot]
    rw [hroot] at hplain
    exact .stay hdir (.inl rfl) hplain
  · rwa [Path.pieces_normalize hnil hroot]

/-- Names behind a path take nothing back. -/
theorem TakesBackNoLink.join_joined {p : Path} (h : fs.TakesBackNoLink p) {names : List String}
    (hnames : AreLegal names) (hne : names ≠ []) : fs.TakesBackNoLink (p.join ⟨joined names⟩) := by
  obtain ⟨start, tail, hp, -, hjoin⟩ :=
    p.exists_pieces_join (Path.isAbsolute_joined hnames.areParts)
  rw [pieces_joined hne hnames.slashFree] at hjoin
  intro front back heq
  rw [hjoin] at heq
  -- the step up is not among the names, so it stands in the path
  obtain ⟨more, rfl, hnamesEq⟩ | ⟨more, hfront, hback⟩ := List.append_eq_append_iff.1 heq
  · exact absurd rfl (hnames ".." (by rw [hnamesEq]; simp)).2.2.1
  · cases more with
    | nil => exact absurd rfl (hnames ".." (by rw [← List.nil_append names, ← hback]; simp)).2.2.1
    | cons step more =>
      obtain ⟨rfl, -⟩ := List.cons.inj hback
      exact h front (more ++ tail) (by rw [hp, hfront]; simp)

end FileSystem
end DocSite
