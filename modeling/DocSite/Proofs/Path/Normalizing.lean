import DocSite.Proofs.Path.Around
import DocSite.Proofs.Url.Relative

/-!
# What normalizing does

A normal form is read again as the stack that it was written from
(`Path.stack_normalize`), and two paths have the same normal form when they leave the same
stack (`Path.normalize_eq_iff`).  Hence normalizing twice is normalizing once, and it does
not matter whether a path is normalized before something is joined behind it.

An address reads the same text in another way: a slash in front means nothing, and a step
up from the start stays at the start.  Both readings leave the same names as long as
neither of the two occurs.  Whether a step up is left on the stack can be told from the
steps without reading them (`up_notMem_foldl_iff`): nowhere are there more steps up than
names so far (`Path.NeverClimbs`).

`Path.IsNormalForm` puts together what the rest of the library may rely on.
-/

namespace DocSite

/-! ## Reading a normal stack again -/

theorem foldl_pushStep_replicate_up (n : Nat) :
    (List.replicate n Component.up).foldl pushStep [] = List.replicate n .up := by
  induction n with
  | zero => rfl
  | succ n ih =>
    rw [List.replicate_succ', List.foldl_append, ih, ← List.replicate_succ']
    cases n <;> rfl

/-- **A normal stack, read from its lowest step on, leaves itself.** -/
theorem IsNormalStack.foldl_reverse {stack : List Component} (h : IsNormalStack stack) :
    stack.reverse.foldl pushStep [] = stack := by
  obtain ⟨names, front, -, hfront, rfl⟩ := h
  have hread : front.reverse.foldl pushStep [] = front := by
    rcases hfront with rfl | ⟨n, rfl⟩
    · rfl
    · rw [List.reverse_replicate, foldl_pushStep_replicate_up]
  rw [List.reverse_append, List.reverse_reverse, List.foldl_append, hread,
    foldl_pushStep_map_name]

namespace Path

theorem stack_normalize (p : Path) : p.normalize.stack = p.stack := by
  by_cases h : p.stack = []
  · rw [normalize_eq_of_stack_eq_nil h, h]
    decide
  · rw [stack, components_normalize h, p.isNormalStack_stack.foldl_reverse]

/-- **Two paths have the same normal form when reading them leaves the same steps.** -/
theorem normalize_eq_iff {p q : Path} : p.normalize = q.normalize ↔ p.stack = q.stack := by
  constructor
  · intro h
    rw [← stack_normalize p, h, stack_normalize q]
  · intro h
    rw [normalize, normalize, normalSteps_components, normalSteps_components, h]

theorem normalize_join_eq (p q : Path) : (p.normalize.join q).normalize = (p.join q).normalize := by
  rw [normalize_eq_iff]
  by_cases hq : q.isAbsolute = true
  · rw [join, join, if_pos hq, if_pos hq]
  · rw [Bool.not_eq_true] at hq
    rw [stack_join _ hq, stack_join _ hq, stack_normalize]

/-- The root is followed by names only. -/
theorem up_notMem_stack_of_isAbsolute {p : Path} (h : p.isAbsolute = true) : .up ∉ p.stack := by
  rw [stack_of_isAbsolute h []]
  simp

end Path

/-! ## Steps that stay below the start -/

/-- A step that goes down to a name. -/
def Component.isName : Component → Bool
  | .name _ => true
  | _ => false

/-- A step up that is left on a stack stays there. -/
theorem up_mem_foldl {steps stack : List Component} (hroot : .root ∉ steps) (h : .up ∈ stack) :
    .up ∈ steps.foldl pushStep stack := by
  induction steps generalizing stack with
  | nil => exact h
  | cons step rest ih =>
    rw [List.mem_cons, not_or] at hroot
    refine ih hroot.2 ?_
    cases step with
    | root => exact absurd rfl hroot.1
    | here => exact h
    | name text => exact List.mem_cons_of_mem _ h
    | up =>
      simp only [pushStep]
      split
      · simpa using h
      · exact h
      · exact List.mem_cons_self ..

/-- **Read behind names, steps leave no step up on the stack when nowhere there are more steps
up than names so far**, where the names that were there before count. -/
theorem up_notMem_foldl_iff {steps : List Component} (hroot : .root ∉ steps)
    (names : List String) : .up ∉ steps.foldl pushStep (names.map .name) ↔
      ∀ front, front <+: steps →
        front.count .up ≤ front.countP Component.isName + names.length := by
  induction steps generalizing names with
  | nil => simp
  | cons step rest ih =>
    rw [List.mem_cons, not_or] at hroot
    have hfronts : (∀ front, front <+: step :: rest →
          front.count .up ≤ front.countP Component.isName + names.length) ↔
        ∀ front, front <+: rest → (step :: front).count .up ≤
          (step :: front).countP Component.isName + names.length := by
      refine ⟨fun h front hfront => h _ (List.cons_prefix_cons.2 ⟨rfl, hfront⟩),
        fun h front hfront => ?_⟩
      obtain rfl | ⟨more, rfl, hmore⟩ := List.prefix_cons_iff.1 hfront
      · exact Nat.zero_le _
      · exact h more hmore
    rw [hfronts, List.foldl_cons]
    cases step with
    | root => exact absurd rfl hroot.1
    | here =>
      refine (ih hroot.2 names).trans (forall₂_congr fun front _ => ?_)
      rw [List.count_cons_of_ne (by simp), List.countP_cons_of_neg (by simp [Component.isName])]
    | name text =>
      refine (ih hroot.2 (text :: names)).trans (forall₂_congr fun front _ => ?_)
      rw [List.count_cons_of_ne (by simp), List.countP_cons_of_pos rfl, List.length_cons]
      omega
    | up =>
      cases names with
      | nil =>
        -- the step up is left on the stack, and there was no name for it
        refine iff_of_false (not_not_intro ?_) fun hall => ?_
        · exact up_mem_foldl hroot.2 (List.mem_singleton_self _)
        · exact absurd (hall [] List.nil_prefix) (by decide)
      | cons name names =>
        refine (ih hroot.2 names).trans (forall₂_congr fun front _ => ?_)
        rw [List.count_cons_self, List.countP_cons_of_neg (by simp [Component.isName]),
          List.length_cons]
        omega

namespace Path

/-- Read step by step, a path never goes up further than it went down. -/
def NeverClimbs (p : Path) : Prop :=
  ∀ front, front <+: p.components → front.count .up ≤ front.countP Component.isName

theorem up_notMem_stack_iff {p : Path} (h : p.isAbsolute = false) :
    .up ∉ p.stack ↔ p.NeverClimbs := by
  have hroot : .root ∉ p.components := by
    rw [root_mem_components_iff, h]
    decide
  exact up_notMem_foldl_iff hroot []

end Path

/-! ## The names of an address -/

namespace Url

theorem reverse_foldl_pushName (parts stack : List String) :
    (parts.foldl pushName stack).reverse = parts.foldl goPiece stack.reverse := by
  induction parts generalizing stack with
  | nil => rfl
  | cons part rest ih =>
    have hpart : (pushName stack part).reverse = goPiece stack.reverse part := by
      rw [pushName]
      split
      · rw [goPiece_of_skip ‹_›]
      · split
        · rename_i hup
          rw [hup, goPiece_dotDot, List.dropLast_reverse]
        · rw [goPiece_of_isName ‹_› ‹_›, List.reverse_cons]
    rw [List.foldl_cons, List.foldl_cons, ih, hpart]

/-- **The names of an address are the place that the text names as a path**, read from the
root. -/
theorem steps_eq_place (text : String) : steps text = (Path.mk text).place [] := by
  have hstart : FileSystem.startOf ⟨text⟩ [] = [] := by
    rw [FileSystem.startOf]
    split <;> rfl
  rw [steps, reverse_foldl_pushName, Path.place_eq_foldl, hstart, List.reverse_nil]

end Url

namespace Path

theorem portable_normalize (p : Path) :
    p.normalize.portable = (ofComponents p.stack.reverse).text := by
  rw [portable, filter_components_normalize]

/-- Where only names are left of a path, they are the names of the address. -/
theorem stack_eq_map_steps {p : Path} (h : p.isAbsolute = false) (hup : .up ∉ p.stack) :
    p.stack.reverse = (Url.steps p.text).map .name := by
  obtain ⟨names, front, -, hfront, hstack⟩ := p.isNormalStack_stack
  obtain rfl : front = [] := by
    rcases hfront with rfl | ⟨n, rfl⟩
    · have hroot : p.isAbsolute = true := p.root_mem_stack_iff.1 (by simp [hstack])
      exact absurd hroot (by simp [h])
    · rw [hstack] at hup
      cases n with
      | zero => rfl
      | succ n => exact absurd (by simp [List.replicate_succ]) hup
  have hnames : Url.steps p.text = names := by
    rw [Url.steps_eq_place, place_eq_stackPlace, hstack, stackPlace, List.append_nil,
      List.reverse_reverse, foldl_go_map_name, List.nil_append]
  rw [hnames, hstack, List.append_nil, List.reverse_reverse]

/-- **A normal path and an address are written alike when the path is relative and never
climbs**, and only then. -/
theorem portable_normalize_eq_iff (p : Path) :
    p.normalize.portable = joined (Url.steps p.text) ↔ p.isAbsolute = false ∧ p.NeverClimbs := by
  constructor
  · intro heq
    -- written alike, the steps that are left are the names of the address
    have hsteps : p.stack.reverse = (Url.steps p.text).map .name := by
      have hnames : IsNormalSteps ((Url.steps p.text).map .name) :=
        ⟨_, [], Url.areLegal_steps p.text, .inr ⟨0, rfl⟩, (List.append_nil _).symm⟩
      rw [portable_normalize, ← text_ofComponents_map_name] at heq
      have hpath : ofComponents p.stack.reverse = ofComponents ((Url.steps p.text).map .name) :=
        congrArg Path.mk heq
      rw [← p.isNormalSteps_stack.components_ofComponents, hpath, hnames.components_ofComponents]
    have hrelative : p.isAbsolute = false := by
      rw [← Bool.not_eq_true, ← root_mem_stack_iff, ← List.mem_reverse, hsteps]
      simp
    refine ⟨hrelative, (up_notMem_stack_iff hrelative).1 ?_⟩
    rw [← List.mem_reverse, hsteps]
    simp
  · rintro ⟨hrelative, hclimb⟩
    rw [portable_normalize, stack_eq_map_steps hrelative ((up_notMem_stack_iff hrelative).2 hclimb),
      text_ofComponents_map_name]

/-! ## Normal forms -/

theorem dot_notMem_pieces_normalize {p : Path} (h : p.stack ≠ []) :
    "." ∉ pieces p.normalize.text := by
  by_cases hroot : p.stack = [.root]
  · rw [normalize_eq_root_iff.2 hroot]
    decide
  · rw [pieces_normalize h hroot, spelled]
    intro hdot
    obtain ⟨step, hstep, hpiece⟩ := List.mem_map.1 hdot
    obtain ⟨names, front, hlegal, hfront, hstack⟩ := p.isNormalStack_stack
    rw [List.mem_reverse, hstack, List.mem_append, List.mem_reverse] at hstep
    rcases hstep with hname | hlead
    · obtain ⟨name, hmem, rfl⟩ := List.mem_map.1 hname
      exact (hlegal name hmem).2.1 hpiece
    · have hother : step = .root ∨ step = .up := by
        rcases hfront with rfl | ⟨n, rfl⟩
        · exact .inl (List.mem_singleton.1 hlead)
        · exact .inr (List.eq_of_mem_replicate hlead)
      rcases hother with rfl | rfl <;> exact absurd hpiece (by decide)

/-- What is known of the normal form `q` of a path `p`. -/
structure IsNormalForm (q p : Path) : Prop where
  /-- There is nothing left to take out. -/
  normalize_eq : q.normalize = q
  /-- Taking the detours out first makes no difference to what is joined behind it. -/
  normalize_join_eq : ∀ b : Path, (q.join b).normalize = (p.join b).normalize
  /-- No `.` is left, be it as a piece or as a step, unless it is all there is. -/
  dot_notMem : q.text = "." ∨ "." ∉ pieces q.text ∧ .here ∉ q.components
  /-- A `..` stands only in front, with nothing but `..` before it. -/
  up_front : ∃ n rest, q.components = List.replicate n .up ++ rest ∧ .up ∉ rest
  /-- Behind the root there is no `..` at all. -/
  up_notMem : q.isAbsolute = true → .up ∉ q.components
  isAbsolute_eq : q.isAbsolute = p.isAbsolute
  /-- What a leaf of a navigation looks up (`Nav.targetUri`) are the names of the address, if
  the path is relative and stays below its start, and only then. -/
  portable_eq_iff : q.portable = joined (Url.steps p.text) ↔ p.isAbsolute = false ∧ p.NeverClimbs

/-- **Normalizing takes out all detours and nothing else.** -/
theorem isNormalForm_normalize (p : Path) : p.normalize.IsNormalForm p where
  normalize_eq := normalize_eq_iff.2 p.stack_normalize
  normalize_join_eq := normalize_join_eq p
  dot_notMem := by
    by_cases h : p.stack = []
    · rw [normalize_eq_of_stack_eq_nil h]
      exact .inl rfl
    · rw [components_normalize h, List.mem_reverse]
      exact .inr ⟨dot_notMem_pieces_normalize h, p.here_notMem_stack⟩
  up_front := by
    by_cases h : p.stack = []
    · rw [normalize_eq_of_stack_eq_nil h]
      exact ⟨0, _, rfl, by decide⟩
    · obtain ⟨names, front, -, hfront, hstack⟩ := p.isNormalStack_stack
      rw [components_normalize h, hstack, List.reverse_append, List.reverse_reverse]
      rcases hfront with rfl | ⟨n, rfl⟩
      · exact ⟨0, _, rfl, by simp⟩
      · exact ⟨n, _, by rw [List.reverse_replicate], by simp⟩
  up_notMem := by
    intro habsolute
    rw [isAbsolute_normalize] at habsolute
    have hroot : .root ∈ p.stack := p.root_mem_stack_iff.2 habsolute
    rw [components_normalize (List.ne_nil_of_mem hroot), List.mem_reverse]
    exact up_notMem_stack_of_isAbsolute habsolute
  isAbsolute_eq := isAbsolute_normalize p
  portable_eq_iff := portable_normalize_eq_iff p

end Path
end DocSite
