import DocSite.Path.Normal
import DocSite.Proofs.Path.Portable
import DocSite.Proofs.Text.Slashes

/-!
# Paths read step by step

A path leaves a stack of steps when it is read from its start, and its normal form
is that stack written down (`Path.stack`).  Joining a relative path is reading on
from the stack that is there (`Path.stack_join`), whatever the spelling of the two
paths: the slash between them, a slash that was there before and an empty path
all read the same.

A stack that was read is normal (`IsNormalStack`): the root or some steps up, and
then names that files can have.  A normal stack that is written down is read again
as itself, so the components of a normal path are its steps
(`Path.components_normalize`).  What lies in a directory by name is what has the
steps of the directory and then further names (`Path.LiesIn`).  The steps that make
a portable form are read again as themselves too, so a portable form is its own
portable form (`Path.portable_portable`).
-/

namespace DocSite

/-- One piece read after what is on a stack. -/
def pushPiece (stack : List Component) (piece : String) : List Component :=
  match Component.ofPiece? piece with
  | none => stack
  | some step => pushStep stack step

theorem foldl_pushStep_filterMap (stack : List Component) (parts : List String) :
    (parts.filterMap Component.ofPiece?).foldl pushStep stack = parts.foldl pushPiece stack := by
  induction parts generalizing stack with
  | nil => rfl
  | cons piece rest ih =>
    rw [List.foldl_cons, ← ih, pushPiece]
    cases hpiece : Component.ofPiece? piece with
    | none => rw [List.filterMap_cons_none hpiece]
    | some step => rw [List.filterMap_cons_some hpiece, List.foldl_cons]

@[simp] theorem pushPiece_empty (stack : List Component) : pushPiece stack "" = stack := by
  rw [pushPiece, Component.ofPiece?, if_pos (Or.inl rfl)]

@[simp] theorem pushPiece_dot (stack : List Component) : pushPiece stack "." = stack := by
  rw [pushPiece, Component.ofPiece?, if_pos (Or.inr rfl)]

@[simp] theorem pushPiece_dotDot (stack : List Component) :
    pushPiece stack ".." = pushStep stack .up := by
  rw [pushPiece, Component.ofPiece?, if_neg (by decide), if_pos rfl]

theorem pushPiece_of_isLegalName {name : String} (h : IsLegalName name)
    (stack : List Component) : pushPiece stack name = .name name :: stack := by
  rw [pushPiece, ofPiece?_of_isLegalName h]
  rfl

/-- Legal names are put on a stack one by one. -/
theorem foldl_pushPiece_of_areLegal {names : List String} (h : AreLegal names)
    (stack : List Component) :
    names.foldl pushPiece stack = (names.map .name).reverse ++ stack := by
  induction names generalizing stack with
  | nil => rfl
  | cons name rest ih =>
    rw [List.foldl_cons, pushPiece_of_isLegalName (h name (List.mem_cons_self ..)),
      ih fun other hother => h other (List.mem_cons_of_mem _ hother)]
    simp

/-- Names are put on a stack one by one. -/
theorem foldl_pushStep_of_names {steps : List Component}
    (h : ∀ step ∈ steps, ∃ name, step = .name name) (stack : List Component) :
    steps.foldl pushStep stack = steps.reverse ++ stack := by
  induction steps generalizing stack with
  | nil => rfl
  | cons step rest ih =>
    obtain ⟨name, rfl⟩ := h step (List.mem_cons_self ..)
    rw [List.foldl_cons, ih fun other hother => h other (List.mem_cons_of_mem _ hother)]
    simp [pushStep]

theorem foldl_pushStep_map_name (names : List String) (stack : List Component) :
    (names.map .name).foldl pushStep stack = (names.map .name).reverse ++ stack := by
  refine foldl_pushStep_of_names (fun step hstep => ?_) stack
  obtain ⟨name, -, rfl⟩ := List.mem_map.1 hstep
  exact ⟨name, rfl⟩

/-! ## Reading and joining -/

namespace Path

/-- The steps that reading a path leaves, the last one on top. -/
def stack (p : Path) : List Component :=
  p.components.foldl pushStep []

theorem normalSteps_components (p : Path) : normalSteps p.components = p.stack.reverse := rfl

/-- What reading a path starts from. -/
def start (p : Path) : List Component :=
  if p.isAbsolute then [.root] else []

/-- A path is read piece by piece. -/
theorem stack_eq (p : Path) : p.stack = (pieces p.text).foldl pushPiece p.start := by
  rw [stack, components, List.foldl_append, foldl_pushStep_filterMap, lead, start]
  congr 1
  split
  · rfl
  · split <;> rfl

theorem isAbsolute_append {s : String} (h : s ≠ "") (t : String) :
    (Path.mk (s ++ t)).isAbsolute = (Path.mk s).isAbsolute := by
  have hne : s.toList ≠ [] := by simpa using h
  rw [isAbsolute, isAbsolute, String.toList_append, List.head?_append_of_ne_nil _ hne]

theorem start_append {s : String} (h : s ≠ "") (t : String) :
    (Path.mk (s ++ t)).start = (Path.mk s).start := by
  rw [start, start, isAbsolute_append h]

theorem exists_eq_append_slash {s : String} (h : s.toList.getLast? = some '/') :
    ∃ t, s = t ++ "/" := by
  obtain ⟨front, hfront⟩ := List.getLast?_eq_some_iff.1 h
  refine ⟨String.ofList front, String.toList_inj.1 ?_⟩
  simp [hfront]

/-- **Joining is reading on.** -/
theorem stack_join (p : Path) {q : Path} (hq : q.isAbsolute = false) :
    (p.join q).stack = (pieces q.text).foldl pushPiece p.stack := by
  rw [join, if_neg (by simp [hq])]
  by_cases hempty : p.text = ""
  · rw [if_pos (Or.inl hempty), hempty, String.empty_append, stack_eq, start, if_neg (by simp [hq])]
    congr 1
    rw [stack_eq, hempty, pieces_empty, List.foldl_cons, List.foldl_nil, pushPiece_empty, start,
      isAbsolute, hempty]
    rfl
  · by_cases hslash : p.text.toList.getLast? = some '/'
    · obtain ⟨s, hs⟩ := exists_eq_append_slash hslash
      have hp : p.stack = (pieces s).foldl pushPiece p.start := by
        rw [stack_eq, hs, ← String.append_empty (s := s ++ "/"), pieces_append_slash,
          List.foldl_append, pieces_empty, List.foldl_cons, List.foldl_nil, pushPiece_empty]
      rw [if_pos (Or.inr hslash), stack_eq, start_append hempty, hp, hs, pieces_append_slash,
        List.foldl_append, ← hs]
    · rw [if_neg (not_or.2 ⟨hempty, hslash⟩), stack_eq, pieces_append_slash, List.foldl_append,
        String.append_assoc, start_append hempty, ← stack_eq]

end Path

/-! ## Normal stacks -/

/-- A stack on which nothing is left to take back: names that files can have, and
below them the root or steps up. -/
def IsNormalStack (stack : List Component) : Prop :=
  ∃ names front, AreLegal names ∧ (front = [.root] ∨ ∃ n, front = List.replicate n .up) ∧
    stack = (names.map .name).reverse ++ front

theorem IsNormalStack.pushPiece {stack : List Component} (h : IsNormalStack stack)
    {piece : String} (hfree : SlashFree piece) : IsNormalStack (DocSite.pushPiece stack piece) := by
  obtain ⟨names, front, hlegal, hfront, rfl⟩ := h
  by_cases hskip : piece = "" ∨ piece = "."
  · rw [DocSite.pushPiece, Component.ofPiece?, if_pos hskip]
    exact ⟨names, front, hlegal, hfront, rfl⟩
  · rw [not_or] at hskip
    by_cases hup : piece = ".."
    · -- a step up takes the last name back, or is kept behind steps up
      rw [DocSite.pushPiece, Component.ofPiece?, if_neg (not_or.2 hskip), if_pos hup]
      rcases List.eq_nil_or_concat' names with rfl | ⟨init, last, rfl⟩
      · rcases hfront with rfl | ⟨n, rfl⟩
        · exact ⟨[], [.root], areLegal_nil, .inl rfl, rfl⟩
        · refine ⟨[], List.replicate (n + 1) .up, areLegal_nil, .inr ⟨n + 1, rfl⟩, ?_⟩
          cases n <;> rfl
      · refine ⟨init, front, fun name hname => hlegal name (by simp [hname]), hfront, ?_⟩
        simp [pushStep]
    · have hname : IsLegalName piece := ⟨hskip.1, hskip.2, hup, hfree⟩
      rw [pushPiece_of_isLegalName hname]
      exact ⟨names ++ [piece], front, hlegal.append_singleton hname, hfront, by simp⟩

namespace Path

theorem isNormalStack_stack (p : Path) : IsNormalStack p.stack := by
  have hfold : ∀ (parts : List String) (stack : List Component), (∀ part ∈ parts, SlashFree part) →
      IsNormalStack stack → IsNormalStack (parts.foldl pushPiece stack) := by
    intro parts
    induction parts with
    | nil => exact fun stack _ h => h
    | cons part rest ih =>
      intro stack hparts h
      exact ih _ (fun other hother => hparts other (List.mem_cons_of_mem _ hother))
        (h.pushPiece (hparts part (List.mem_cons_self ..)))
  rw [stack_eq]
  refine hfold _ _ (fun part hpart => slashFree_of_mem_pieces hpart) ?_
  rw [start]
  split
  · exact ⟨[], [.root], areLegal_nil, .inl rfl, rfl⟩
  · exact ⟨[], [], areLegal_nil, .inr ⟨0, rfl⟩, rfl⟩

theorem here_notMem_stack (p : Path) : .here ∉ p.stack := by
  obtain ⟨names, front, -, hfront, hstack⟩ := p.isNormalStack_stack
  rw [hstack]
  rcases hfront with rfl | ⟨n, rfl⟩ <;> simp [List.mem_replicate]

/-! ## Writing down and reading again -/

/-- Steps up and names that files can have, as they stand in a relative path. -/
def AreRelative (steps : List Component) : Prop :=
  ∀ step ∈ steps, step = .up ∨ ∃ name, IsLegalName name ∧ step = .name name

theorem AreRelative.areParts {steps : List Component} (h : AreRelative steps) :
    AreParts (steps.map Component.piece) := by
  intro part hpart
  obtain ⟨step, hstep, rfl⟩ := List.mem_map.1 hpart
  rcases h step hstep with rfl | ⟨name, hname, rfl⟩
  · exact ⟨by decide, by decide⟩
  · exact ⟨hname.1, hname.2.2.2⟩

theorem AreRelative.filterMap_ofPiece? {steps : List Component} (h : AreRelative steps) :
    (steps.map Component.piece).filterMap Component.ofPiece? = steps := by
  rw [List.filterMap_map, List.filterMap_congr (g := some), List.filterMap_some]
  intro step hstep
  rcases h step hstep with rfl | ⟨name, hname, rfl⟩
  · rfl
  · exact ofPiece?_of_isLegalName hname

/-- Relative steps, written down, are read as they are. -/
theorem components_ofComponents_of_areRelative {steps : List Component} (h : AreRelative steps)
    (hne : steps ≠ []) : (ofComponents steps).components = steps := by
  obtain ⟨first, rest, rfl⟩ := List.exists_cons_of_ne_nil hne
  have hfirst := h first (List.mem_cons_self ..)
  have hroot : first :: rest ≠ [.root] := by
    intro heq
    obtain ⟨rfl, -⟩ := List.cons.inj heq
    rcases hfirst with hup | ⟨name, -, hname⟩
    · exact absurd hup (by decide)
    · exact absurd hname (by simp)
  have hpiece : first.piece ≠ "" ∧ first.piece ≠ "." := by
    rcases hfirst with rfl | ⟨name, hname, rfl⟩
    · decide
    · exact ⟨hname.1, hname.2.1⟩
  rw [ofComponents, if_neg hroot, List.map_cons,
    components_joined_eq_filterMap (by simpa using h.areParts.slashFree) hpiece.1 hpiece.2,
    ← List.map_cons, h.filterMap_ofPiece?]

/-- Relative steps from the root, written down, are read as they are. -/
theorem components_ofComponents_root_cons {steps : List Component} (h : AreRelative steps) :
    (ofComponents (.root :: steps)).components = .root :: steps := by
  cases steps with
  | nil => decide
  | cons first rest =>
    have hpieces : pieces (joined ("" :: (first :: rest).map Component.piece)) =
        "" :: (first :: rest).map Component.piece := by
      refine pieces_joined (List.cons_ne_nil _ _) ?_
      intro part hpart
      rcases List.mem_cons.1 hpart with rfl | hpart
      · decide
      · exact h.areParts.slashFree part hpart
    have habsolute :
        (Path.mk (joined ("" :: (first :: rest).map Component.piece))).isAbsolute = true := by
      rw [isAbsolute, List.map_cons, joined_cons_cons]
      simp
    have htext : (.root :: first :: rest).map Component.piece =
        "" :: (first :: rest).map Component.piece := rfl
    rw [ofComponents, if_neg (by simp), htext, components, lead, if_pos habsolute, hpieces,
      List.filterMap_cons_none (by decide), h.filterMap_ofPiece?]
    rfl

/-- Names from the root, written down, are read as they are. -/
theorem components_ofComponents_root {names : List String} (h : AreLegal names) :
    (ofComponents (.root :: names.map .name)).components = .root :: names.map .name := by
  refine components_ofComponents_root_cons fun step hstep => ?_
  obtain ⟨name, hname, rfl⟩ := List.mem_map.1 hstep
  exact .inr ⟨name, h name hname, rfl⟩

/-- What a path has besides its lead are relative steps. -/
theorem areRelative_filterMap_pieces (text : String) :
    AreRelative ((pieces text).filterMap Component.ofPiece?) := by
  intro step hstep
  obtain ⟨piece, hpiece, hread⟩ := List.mem_filterMap.1 hstep
  rw [Component.ofPiece?] at hread
  split_ifs at hread with hskip hup
  · exact .inl (Option.some.inj hread).symm
  · rw [not_or] at hskip
    exact .inr ⟨piece, ⟨hskip.1, hskip.2, hup, slashFree_of_mem_pieces hpiece⟩,
      (Option.some.inj hread).symm⟩

/-- The steps of a path besides a leading `.` are those of its pieces, from the root if the
path is absolute. -/
theorem filter_components (p : Path) : p.components.filter (· ≠ .here) =
    (if p.isAbsolute then [.root] else []) ++ (pieces p.text).filterMap Component.ofPiece? := by
  have hnotHere : ∀ step ∈ (pieces p.text).filterMap Component.ofPiece?, step ≠ .here := by
    rintro _ hstep rfl
    rcases areRelative_filterMap_pieces p.text _ hstep with hup | ⟨_, -, hname⟩
    · cases hup
    · cases hname
  have hfilter : ((pieces p.text).filterMap Component.ofPiece?).filter (· ≠ .here) =
      (pieces p.text).filterMap Component.ofPiece? :=
    List.filter_eq_self.2 fun step hstep => by simpa using hnotHere step hstep
  rw [components, List.filter_append, hfilter, lead]
  congr 1
  split
  · rfl
  · split <;> rfl

/-- The portable form of a relative path is what its steps are, with slashes between them. -/
theorem exists_portable_eq {p : Path} (h : p.isAbsolute = false) :
    ∃ steps, AreRelative steps ∧ p.portable = joined (steps.map Component.piece) := by
  have hsteps := areRelative_filterMap_pieces p.text
  refine ⟨_, hsteps, ?_⟩
  have hroot : (pieces p.text).filterMap Component.ofPiece? ≠ [.root] := by
    intro heq
    rcases hsteps .root (by simp [heq]) with hup | ⟨_, -, hname⟩
    · cases hup
    · cases hname
  rw [portable, filter_components, if_neg (by simp [h]), List.nil_append, ofComponents,
    if_neg hroot]

/-- **The portable form of a portable form is the form itself.** -/
theorem portable_portable (p : Path) : (Path.mk p.portable).portable = p.portable := by
  have hsteps := areRelative_filterMap_pieces p.text
  -- written down, the steps are read again, unless there are none
  have hread : p.components.filter (· ≠ .here) = [] ∨ (ofComponents
      (p.components.filter (· ≠ .here))).components = p.components.filter (· ≠ .here) := by
    rw [filter_components]
    split
    · exact .inr (components_ofComponents_root_cons hsteps)
    · exact or_iff_not_imp_left.2 (components_ofComponents_of_areRelative hsteps)
  rw [portable.eq_1 p]
  rcases hread with hnone | hread
  · rw [hnone]
    decide
  · rw [portable, hread, List.filter_filter]
    simp only [Bool.and_self]

/-- **A normal path has the steps that are left when a path is read.** -/
theorem components_normalize {p : Path} (h : p.stack ≠ []) :
    p.normalize.components = p.stack.reverse := by
  obtain ⟨names, front, hlegal, hfront, hstack⟩ := p.isNormalStack_stack
  have hsteps : p.normalize = ofComponents p.stack.reverse := by
    rw [normalize, normalSteps_components]
    split
    · simp_all
    · rfl
  rw [hsteps, hstack, List.reverse_append, List.reverse_reverse]
  rcases hfront with rfl | ⟨n, rfl⟩
  · exact components_ofComponents_root hlegal
  · rw [List.reverse_replicate]
    refine components_ofComponents_of_areRelative ?_ ?_
    · intro step hstep
      rcases List.mem_append.1 hstep with hstep | hstep
      · exact .inl (List.eq_of_mem_replicate hstep)
      · obtain ⟨name, hname, rfl⟩ := List.mem_map.1 hstep
        exact .inr ⟨name, hlegal name hname, rfl⟩
    · intro hnil
      obtain ⟨hfront, hnames⟩ := List.append_eq_nil_iff.1 hnil
      exact h (by rw [hstack, List.map_eq_nil_iff.1 hnames, hfront]; rfl)

theorem normalize_eq_of_stack_eq_nil {p : Path} (h : p.stack = []) : p.normalize = ⟨"."⟩ := by
  rw [normalize, normalSteps_components, h]
  rfl

theorem filter_components_normalize (p : Path) :
    p.normalize.components.filter (· ≠ .here) = p.stack.reverse := by
  by_cases h : p.stack = []
  · rw [normalize_eq_of_stack_eq_nil h, h]
    decide
  · rw [components_normalize h, List.filter_eq_self]
    intro step hstep
    have hne : step ≠ .here := by
      rintro rfl
      exact p.here_notMem_stack (List.mem_reverse.1 hstep)
    simpa using hne

/-- A path of legal names is read as it is written. -/
theorem portable_normalize_joined {names : List String} (h : AreLegal names) (hne : names ≠ []) :
    (Path.mk (joined names)).normalize.portable = joined names := by
  rw [portable, filter_components_normalize, stack, components_joined h hne,
    foldl_pushStep_map_name, List.append_nil, List.reverse_reverse, text_ofComponents_map_name]

/-! ## Lying in a directory -/

/-- A path lies in a directory, by name and without detours: it has the steps of the
directory and then further names.  The directory `.` has no steps of its own. -/
def LiesIn (p dir : Path) : Prop :=
  ∃ names, names ≠ [] ∧ p.components = dir.components.filter (· ≠ .here) ++ names.map .name

theorem isAbsolute_joined {parts : List String} (h : AreParts parts) :
    (Path.mk (joined parts)).isAbsolute = false := by
  cases parts with
  | nil => decide
  | cons first rest =>
    have hfirst := h first (List.mem_cons_self ..)
    have hslash : first.toList.head? ≠ some '/' := fun hslash =>
      hfirst.2 (List.mem_of_head? hslash)
    rw [isAbsolute, head?_joined_cons hfirst.1]
    simpa using hslash

/-- Parts behind a directory are read on from the steps of the directory. -/
theorem stack_join_joined (dir : Path) {parts : List String} (h : AreParts parts)
    (hne : parts ≠ []) :
    (dir.join ⟨joined parts⟩).stack = parts.foldl pushPiece dir.stack := by
  rw [stack_join dir (isAbsolute_joined h), pieces_joined hne h.slashFree]

/-- A path lies in a directory when reading it leaves the steps of the directory and
further names on top. -/
theorem liesIn_normalize_iff {p dir : Path} : p.normalize.LiesIn dir.normalize ↔
    ∃ names, names ≠ [] ∧ p.stack = (names.map .name).reverse ++ dir.stack := by
  refine exists_congr fun names => and_congr_right fun hne => ?_
  rw [filter_components_normalize]
  by_cases hp : p.stack = []
  · obtain ⟨front, last, rfl⟩ := (List.eq_nil_or_concat' names).resolve_left hne
    -- what is written for no steps at all is `.`, which is not a name
    have hhere : (Path.mk ".").components = [.here] := by decide
    rw [normalize_eq_of_stack_eq_nil hp, hp, hhere]
    constructor
    · intro heq
      have hlast := congrArg List.getLast? heq
      simp at hlast
    · simp
  · rw [components_normalize hp, List.reverse_eq_iff, List.reverse_append, List.reverse_reverse]

/-- **What is reached by legal names lies in the directory.** -/
theorem liesIn_normalize_join (dir : Path) {names : List String} (h : AreLegal names)
    (hne : names ≠ []) : (dir.join ⟨joined names⟩).normalize.LiesIn dir.normalize :=
  liesIn_normalize_iff.2 ⟨names, hne, by
    rw [stack_join_joined dir h.areParts hne, foldl_pushPiece_of_areLegal h]⟩

theorem normalize_eq_root_iff {p : Path} : p.normalize = ⟨"/"⟩ ↔ p.stack = [.root] := by
  constructor
  · intro hroot
    have hsteps := filter_components_normalize p
    have hsingle : (Path.mk "/").components.filter (· ≠ .here) = [.root] := by decide
    rw [hroot, hsingle] at hsteps
    rw [← List.reverse_reverse p.stack, ← hsteps]
    rfl
  · intro hstack
    rw [normalize, normalSteps_components, hstack]
    rfl

/-- One step up from a directory is not in the directory, nor is what lies beside it,
unless the directory is the root. -/
theorem exists_name_cons_pushStep_up_iff (dir : Path) (name : String) :
    (∃ names, names ≠ [] ∧
      .name name :: pushStep dir.stack .up = (names.map .name).reverse ++ dir.stack) ↔
      dir.stack = [.root] := by
  constructor
  · rintro ⟨more, hne, heq⟩
    have hlength := congrArg List.length heq
    obtain ⟨names, front, -, hfront, hstack⟩ := dir.isNormalStack_stack
    rw [hstack] at heq hlength ⊢
    rcases List.eq_nil_or_concat' names with rfl | ⟨init, last, rfl⟩
    · rcases hfront with rfl | ⟨n, rfl⟩
      · rfl
      · -- behind steps up one more stays, and it would have to be a name
        have hup : pushStep (List.replicate n .up) .up = .up :: List.replicate n .up := by
          cases n <;> rfl
        simp only [List.map_nil, List.reverse_nil, List.nil_append, hup, List.length_cons,
          List.length_append, List.length_reverse, List.length_map] at heq hlength
        obtain ⟨first, second, rfl⟩ := List.length_eq_two.1 (by omega : more.length = 2)
        simp at heq
    · -- a step up from a name takes the name away
      simp only [List.map_append, List.map_cons, List.map_nil, List.reverse_append,
        List.reverse_cons, List.reverse_nil, List.nil_append, List.cons_append, pushStep,
        List.length_cons, List.length_append, List.length_reverse, List.length_map] at hlength
      exact absurd (List.eq_nil_of_length_eq_zero (by omega)) hne
  · intro hroot
    exact ⟨[name], by simp, by rw [hroot]; rfl⟩

end Path
end DocSite
