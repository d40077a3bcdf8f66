import Mathlib.Data.List.DropRight
import Mathlib.Data.List.Induction
import DocSite.FileSystem.Operations
import DocSite.Proofs.Path.Place

/-!
# The paths around a path

However a path is spelled, its parent has its steps but the last
(`Path.components_parent?`).  Pieces that stand for no step are left out before and behind
the step that is taken away, so none of them is taken for it.

A path without detours is written from normal steps: the root or some steps up, and then
names.  Its parent is written from the steps but the last (`Path.parent?_ofComponents`),
and the paths that are made directories one after the other, when a directory is asked
for, are written from the first of its steps (`exists_isPrefix_of_mem_pathsUp`).  A path
of these that ends in a name names a place around that of the whole path
(`IsNormalSteps.place_isPrefix`).
-/

namespace DocSite

theorem IsNormalStack.tail {step : Component} {stack : List Component}
    (h : IsNormalStack (step :: stack)) : IsNormalStack stack := by
  obtain ⟨names, front, hlegal, hfront, heq⟩ := h
  rcases List.eq_nil_or_concat' names with rfl | ⟨init, last, rfl⟩
  · rw [List.map_nil, List.reverse_nil, List.nil_append] at heq
    rcases hfront with rfl | ⟨n, rfl⟩
    · obtain ⟨-, rfl⟩ := List.cons.inj heq
      exact ⟨[], [], areLegal_nil, .inr ⟨0, rfl⟩, rfl⟩
    · obtain ⟨m, rfl⟩ : ∃ m, n = m + 1 := Nat.exists_eq_succ_of_ne_zero (by rintro rfl; simp at heq)
      obtain ⟨-, rfl⟩ := List.cons.inj heq
      exact ⟨[], _, areLegal_nil, .inr ⟨m, rfl⟩, rfl⟩
  · rw [List.map_append, List.reverse_append] at heq
    obtain ⟨-, rfl⟩ := List.cons.inj heq
    exact ⟨init, front, fun name hname => hlegal name (List.mem_append_left _ hname), hfront, rfl⟩

/-- Steps that are left when a path is read: the root or some steps up, and then names. -/
def IsNormalSteps (steps : List Component) : Prop :=
  IsNormalStack steps.reverse

theorem Path.isNormalSteps_stack (p : Path) : IsNormalSteps p.stack.reverse := by
  rw [IsNormalSteps, List.reverse_reverse]
  exact p.isNormalStack_stack

namespace IsNormalSteps

variable {steps front : List Component}

/-- The last step, if it is a name, is a legal one. -/
theorem isLegalName {name : String} (h : IsNormalSteps (front ++ [.name name])) :
    IsLegalName name := by
  obtain ⟨names, lead, hlegal, hlead, heq⟩ := h
  have hmem : .name name ∈ (names.map Component.name).reverse ++ lead := by
    rw [← heq]
    simp
  have hlead : .name name ∉ lead := by
    rcases hlead with rfl | ⟨n, rfl⟩ <;> simp [List.mem_replicate]
  rw [List.mem_append, or_iff_left hlead] at hmem
  exact hlegal name (by simpa using hmem)

/-- Every step but the root is written with something, and without a slash. -/
theorem eq_root_or_piece (h : IsNormalSteps steps) {step : Component} (hstep : step ∈ steps) :
    step = .root ∨ step.piece ≠ "" ∧ SlashFree step.piece := by
  obtain ⟨names, lead, hlegal, hlead, heq⟩ := h
  rw [← List.mem_reverse, heq, List.mem_append, List.mem_reverse] at hstep
  rcases hstep with hstep | hstep
  · obtain ⟨name, hname, rfl⟩ := List.mem_map.1 hstep
    exact .inr ⟨(hlegal name hname).1, (hlegal name hname).2.2.2⟩
  · rcases hlead with rfl | ⟨n, rfl⟩
    · exact .inl (List.mem_singleton.1 hstep)
    · rw [List.eq_of_mem_replicate hstep]
      exact .inr (by decide)

theorem slashFree_piece (h : IsNormalSteps steps) :
    ∀ part ∈ steps.map Component.piece, SlashFree part := by
  intro part hpart
  obtain ⟨step, hstep, rfl⟩ := List.mem_map.1 hpart
  obtain rfl | ⟨-, hfree⟩ := h.eq_root_or_piece hstep
  · decide
  · exact hfree

/-- Only no steps, or the root, are written with nothing. -/
theorem joined_ne_empty (h : IsNormalSteps steps) (hne : steps ≠ []) (hroot : steps ≠ [.root]) :
    joined (steps.map Component.piece) ≠ "" := by
  intro hempty
  have hpieces := pieces_joined (by simpa using hne) h.slashFree_piece
  rw [hempty, pieces_empty] at hpieces
  obtain ⟨step, rfl, hstep⟩ := List.map_eq_singleton_iff.1 hpieces.symm
  obtain rfl | ⟨hne, -⟩ := h.eq_root_or_piece (List.mem_singleton_self step)
  · exact hroot rfl
  · exact hne hstep

/-- **Normal steps, written down, are read as they are.** -/
theorem components_ofComponents (h : IsNormalSteps steps) :
    (Path.ofComponents steps).components = steps := by
  rcases eq_or_ne steps [] with rfl | hne
  · decide
  obtain ⟨names, lead, hlegal, hlead, heq⟩ := h
  rw [List.reverse_eq_iff, List.reverse_append, List.reverse_reverse] at heq
  subst heq
  rcases hlead with rfl | ⟨n, rfl⟩
  · exact Path.components_ofComponents_root hlegal
  · refine Path.components_ofComponents_of_areRelative ?_ hne
    intro step hstep
    rcases List.mem_append.1 hstep with hstep | hstep
    · rw [List.reverse_replicate] at hstep
      exact .inl (List.eq_of_mem_replicate hstep)
    · obtain ⟨name, hname, rfl⟩ := List.mem_map.1 hstep
      exact .inr ⟨name, hlegal name hname, rfl⟩

end IsNormalSteps

/-! ## The directories around a path -/

namespace Path

theorem parent?_of_lead_eq_none {p : Path} (hlead : p.lead = none) {parts : List String}
    {part : String} (h : trimmed (pieces p.text) = parts ++ [part]) :
    p.parent? = some ⟨joined (trimmed parts)⟩ := by
  rw [parent?, hlead, h]
  simp only
  split
  · simp at *
  · rw [List.dropLast_concat]

theorem parent?_of_lead_eq_some {p : Path} {start : Component} (hlead : p.lead = some start)
    {parts : List String} {part : String} (h : trimmed (pieces p.text).tail = parts ++ [part]) :
    p.parent? = some (if trimmed parts = [] then ofComponents [start]
      else ⟨joined (start.piece :: trimmed parts)⟩) := by
  rw [parent?, hlead, h]
  simp only
  split
  · simp at *
  · rw [List.dropLast_concat]
    split
    · rw [if_pos ‹_›]
    · rw [if_neg ‹_›]

theorem trimmed_eq_rdropWhile (parts : List String) :
    trimmed parts = parts.rdropWhile fun part => (Component.ofPiece? part).isNone := rfl

/-- What is trimmed off stands for no step. -/
theorem filterMap_trimmed (parts : List String) :
    (trimmed parts).filterMap Component.ofPiece? = parts.filterMap Component.ofPiece? := by
  induction parts using List.reverseRecOn with
  | nil => rfl
  | append_singleton parts part ih =>
    rw [trimmed_eq_rdropWhile, List.rdropWhile_concat]
    split
    · rename_i hnone
      rw [← trimmed_eq_rdropWhile, ih, List.filterMap_append, List.filterMap_cons_none
        (Option.isNone_iff_eq_none.1 hnone), List.filterMap_nil, List.append_nil]
    · rfl

/-- What is left ends in a step, and the steps before it are those of what is left of the
pieces before. -/
theorem exists_filterMap_eq_of_trimmed_eq {parts front : List String} {last : String}
    (h : trimmed parts = front ++ [last]) : ∃ step, parts.filterMap Component.ofPiece? =
      (trimmed front).filterMap Component.ofPiece? ++ [step] := by
  have hlast : (Component.ofPiece? last).isSome := by
    have hne : trimmed parts ≠ [] := by rw [h]; simp
    have hkept := List.rdropWhile_last_not _ parts hne
    simp only [← trimmed_eq_rdropWhile, h] at hkept
    exact Option.isSome_iff_ne_none.2 (by simpa using hkept)
  obtain ⟨step, hstep⟩ := Option.isSome_iff_exists.1 hlast
  refine ⟨step, ?_⟩
  rw [← filterMap_trimmed parts, h, List.filterMap_append, filterMap_trimmed,
    List.filterMap_cons_some hstep, List.filterMap_nil]

/-- The first piece says where a path starts. -/
theorem lead_joined_cons {first : String} {rest : List String}
    (hfree : ∀ part ∈ first :: rest, SlashFree part) (hfirst : first = "" → rest ≠ []) :
    (Path.mk (joined (first :: rest))).lead =
      if first = "" then some .root else if first = "." then some .here else none := by
  have hpieces := pieces_joined (List.cons_ne_nil first rest) hfree
  have habsolute : (Path.mk (joined (first :: rest))).isAbsolute = decide (first = "") := by
    by_cases hempty : first = ""
    · obtain ⟨second, others, hrest⟩ := List.exists_cons_of_ne_nil (hfirst hempty)
      rw [isAbsolute, hrest, joined_cons_cons, hempty]
      simp
    · have hslash : first.toList.head? ≠ some '/' := fun hslash =>
        hfree first (List.mem_cons_self ..) (List.mem_of_head? hslash)
      rw [isAbsolute, head?_joined_cons hempty, decide_eq_false hempty]
      simpa using hslash
  rw [lead, habsolute, hpieces, List.head?_cons]
  simp only [decide_eq_true_eq, Option.some.injEq]

/-- The steps of the parent of a path that starts with a name or with a step up. -/
theorem components_parent?_of_lead_eq_none {p : Path} (hlead : p.lead = none)
    {first : String} {rest : List String} (hpieces : pieces p.text = first :: rest)
    (hfirst : first ≠ "") (hhere : first ≠ ".") :
    (p.parent?.map components).getD [] = p.components.dropLast := by
  rw [components, hlead, Option.toList_none, List.nil_append]
  rcases List.eq_nil_or_concat' (trimmed (pieces p.text)) with hnil | ⟨front, last, hconcat⟩
  · have hnone : p.parent? = none := by simp only [parent?, hlead, hnil]
    rw [hnone, ← filterMap_trimmed, hnil]
    rfl
  · obtain ⟨step, hsteps⟩ := exists_filterMap_eq_of_trimmed_eq hconcat
    have hprefix : trimmed front <+: first :: rest := by
      have hfront : front <+: trimmed (pieces p.text) := hconcat ▸ List.prefix_append _ _
      rw [← hpieces]
      exact (List.rdropWhile_prefix _ front).trans
        (hfront.trans (List.rdropWhile_prefix _ (pieces p.text)))
    rw [parent?_of_lead_eq_none hlead hconcat, hsteps, List.dropLast_concat, Option.map_some,
      Option.getD_some]
    cases habove : trimmed front with
    | nil => decide
    | cons other above =>
      rw [habove, List.cons_prefix_cons] at hprefix
      obtain ⟨rfl, hprefix⟩ := hprefix
      have hfree : ∀ part ∈ other :: above, SlashFree part := fun part hpart => by
        have hmem : part ∈ pieces p.text :=
          hpieces ▸ (List.cons_prefix_cons.2 ⟨rfl, hprefix⟩).subset hpart
        exact slashFree_of_mem_pieces hmem
      exact components_joined_eq_filterMap hfree hfirst hhere

/-- The steps of the parent of a path that starts with the root or with `.`. -/
theorem components_parent?_of_lead_eq_some {p : Path} {start : Component}
    (hstart : start = .root ∨ start = .here) (hlead : p.lead = some start) {rest : List String}
    (hpieces : pieces p.text = start.piece :: rest) :
    (p.parent?.map components).getD [] = p.components.dropLast := by
  have hsilent : Component.ofPiece? start.piece = none := by
    rcases hstart with rfl | rfl <;> rfl
  rw [components, hlead, hpieces, List.filterMap_cons_none hsilent, Option.toList_some]
  rcases List.eq_nil_or_concat' (trimmed rest) with hnil | ⟨front, last, hconcat⟩
  · have hparent : p.parent? = if start = .here then some ⟨""⟩ else none := by
      simp only [parent?, hlead, hpieces, List.tail_cons, hnil]
    rw [hparent, ← filterMap_trimmed, hnil]
    rcases hstart with rfl | rfl <;> decide
  · obtain ⟨step, hsteps⟩ := exists_filterMap_eq_of_trimmed_eq hconcat
    have hprefix : trimmed front <+: rest := by
      have hfront : front <+: trimmed rest := hconcat ▸ List.prefix_append _ _
      exact (List.rdropWhile_prefix _ front).trans
        (hfront.trans (List.rdropWhile_prefix _ rest))
    have hparent := parent?_of_lead_eq_some hlead (by rw [hpieces, List.tail_cons, hconcat])
    rw [hparent, hsteps, ← List.append_assoc, List.dropLast_concat, Option.map_some,
      Option.getD_some]
    split
    · rename_i hnil
      rw [hnil]
      rcases hstart with rfl | rfl <;> decide
    · rename_i hne
      have hfree : ∀ part ∈ start.piece :: trimmed front, SlashFree part := fun part hpart => by
        have hmem : part ∈ pieces p.text :=
          hpieces ▸ (List.cons_prefix_cons.2 ⟨rfl, hprefix⟩).subset hpart
        exact slashFree_of_mem_pieces hmem
      rw [components, lead_joined_cons hfree fun _ => hne,
        pieces_joined (List.cons_ne_nil _ _) hfree, List.filterMap_cons_none hsilent]
      rcases hstart with rfl | rfl <;> rfl

/-- **The steps of the directory around a path** are those of the path but the last. -/
theorem components_parent? (p : Path) :
    (p.parent?.map components).getD [] = p.components.dropLast := by
  obtain ⟨first, rest, hpieces⟩ := List.exists_cons_of_ne_nil (pieces_ne_nil p.text)
  obtain rfl : p = ⟨joined (first :: rest)⟩ := by rw [← hpieces, joined_pieces]
  by_cases hblank : first = "" ∧ rest = []
  · obtain ⟨rfl, rfl⟩ := hblank
    decide
  · have hlead := lead_joined_cons (fun part hpart => slashFree_of_mem_pieces (hpieces ▸ hpart))
      (not_and.1 hblank)
    by_cases hfirst : first = ""
    · subst hfirst
      rw [if_pos rfl] at hlead
      exact components_parent?_of_lead_eq_some (.inl rfl) hlead hpieces
    · by_cases hhere : first = "."
      · subst hhere
        rw [if_neg (by decide), if_pos rfl] at hlead
        exact components_parent?_of_lead_eq_some (.inr rfl) hlead hpieces
      · rw [if_neg hfirst, if_neg hhere] at hlead
        exact components_parent?_of_lead_eq_none hlead hpieces hfirst hhere

end Path

end DocSite
