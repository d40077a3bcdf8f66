import Mathlib.Data.List.Flatten
import DocSite.Proofs.Path.Steps
import DocSite.Proofs.Url.Address

/-!
# How a normal path is written

A normal path has pieces of the path that it was made from, in the same order
(`Path.spelled_sublist`).  It is therefore no longer, except for the `.` that stands for
no piece at all, and it holds no character that was not there before
(`Path.toList_normalize_sublist`).  Both are absolute or none is
(`Path.isAbsolute_normalize`).

A piece that is read leaves a stack in one of few ways (`pushPiece_cases`), and only one
of them takes something away: a step up behind a name.
-/

namespace DocSite

/-- The pieces that are written for a stack of steps. -/
def spelled (stack : List Component) : List String :=
  stack.reverse.map Component.piece

@[simp] theorem spelled_cons (step : Component) (stack : List Component) :
    spelled (step :: stack) = spelled stack ++ [step.piece] := by
  simp [spelled]

/-- **What one piece does to a normal stack.** -/
theorem pushPiece_cases {stack : List Component} (h : IsNormalStack stack) {piece : String}
    (hfree : SlashFree piece) :
    (piece = "" ∨ piece = ".") ∧ pushPiece stack piece = stack ∨
    piece = ".." ∧ (stack = [.root] ∧ pushPiece stack piece = stack ∨
      (∃ name below, IsLegalName name ∧ stack = .name name :: below ∧
        pushPiece stack piece = below) ∨
      pushPiece stack piece = .up :: stack) ∨
    IsLegalName piece ∧ pushPiece stack piece = .name piece :: stack := by
  by_cases hskip : piece = "" ∨ piece = "."
  · exact .inl ⟨hskip, by rcases hskip with rfl | rfl <;> simp⟩
  by_cases hup : piece = ".."
  · subst hup
    refine .inr (.inl ⟨rfl, ?_⟩)
    rw [pushPiece_dotDot]
    obtain ⟨names, front, hlegal, hfront, rfl⟩ := h
    rcases List.eq_nil_or_concat' names with rfl | ⟨init, last, rfl⟩
    · rcases hfront with rfl | ⟨n, rfl⟩
      · exact .inl ⟨rfl, rfl⟩
      · refine .inr (.inr ?_)
        cases n <;> rfl
    · exact .inr (.inl ⟨last, (init.map .name).reverse ++ front, hlegal last (by simp), by simp,
        by simp [pushStep]⟩)
  · have hname : IsLegalName piece := ⟨fun h => hskip (.inl h), fun h => hskip (.inr h), hup, hfree⟩
    exact .inr (.inr ⟨hname, pushPiece_of_isLegalName hname stack⟩)

theorem isNormalStack_foldl {stack : List Component} (h : IsNormalStack stack)
    {parts : List String} (hfree : ∀ part ∈ parts, SlashFree part) :
    IsNormalStack (parts.foldl pushPiece stack) := by
  induction parts generalizing stack with
  | nil => exact h
  | cons part rest ih =>
    exact ih (h.pushPiece (hfree part (List.mem_cons_self ..)))
      fun other hother => hfree other (List.mem_cons_of_mem _ hother)

theorem root_mem_pushPiece_iff {stack : List Component} (h : IsNormalStack stack)
    {piece : String} (hfree : SlashFree piece) :
    .root ∈ pushPiece stack piece ↔ .root ∈ stack := by
  obtain ⟨-, hstack⟩ | ⟨-, ⟨-, hstack⟩ | ⟨name, below, -, rfl, hstack⟩ | hstack⟩ | ⟨-, hstack⟩ :=
    pushPiece_cases h hfree <;> simp [hstack]

theorem root_mem_foldl_iff {stack : List Component} (h : IsNormalStack stack)
    {parts : List String} (hfree : ∀ part ∈ parts, SlashFree part) :
    .root ∈ parts.foldl pushPiece stack ↔ .root ∈ stack := by
  induction parts generalizing stack with
  | nil => exact Iff.rfl
  | cons part rest ih =>
    have hpart := hfree part (List.mem_cons_self ..)
    rw [List.foldl_cons, ih (h.pushPiece hpart) fun other hother =>
      hfree other (List.mem_cons_of_mem _ hother), root_mem_pushPiece_iff h hpart]

theorem spelled_pushPiece_sublist {stack : List Component} (h : IsNormalStack stack)
    {piece : String} (hfree : SlashFree piece) :
    (spelled (pushPiece stack piece)).Sublist (spelled stack ++ [piece]) := by
  obtain ⟨-, hstack⟩ | ⟨rfl, ⟨-, hstack⟩ | ⟨name, below, -, rfl, hstack⟩ | hstack⟩ |
    ⟨-, hstack⟩ := pushPiece_cases h hfree <;> rw [hstack]
  · exact List.sublist_append_left _ _
  · exact List.sublist_append_left _ _
  · rw [spelled_cons, List.append_assoc]
    exact List.sublist_append_left _ _
  · rw [spelled_cons]
    exact List.Sublist.refl _
  · rw [spelled_cons]
    exact List.Sublist.refl _

theorem spelled_foldl_sublist {stack : List Component} (h : IsNormalStack stack)
    {parts : List String} (hfree : ∀ part ∈ parts, SlashFree part) :
    (spelled (parts.foldl pushPiece stack)).Sublist (spelled stack ++ parts) := by
  induction parts generalizing stack with
  | nil => simp
  | cons part rest ih =>
    have hpart := hfree part (List.mem_cons_self ..)
    have hrest := ih (h.pushPiece hpart) fun other hother =>
      hfree other (List.mem_cons_of_mem _ hother)
    rw [List.foldl_cons]
    refine hrest.trans ?_
    rw [List.append_cons]
    exact (spelled_pushPiece_sublist h hpart).append_right rest

namespace Path

theorem isNormalStack_start (p : Path) : IsNormalStack p.start := by
  rw [start]
  split
  · exact ⟨[], [.root], areLegal_nil, .inl rfl, rfl⟩
  · exact ⟨[], [], areLegal_nil, .inr ⟨0, rfl⟩, rfl⟩

theorem root_mem_stack_iff (p : Path) : .root ∈ p.stack ↔ p.isAbsolute = true := by
  rw [stack_eq, root_mem_foldl_iff p.isNormalStack_start fun _ => slashFree_of_mem_pieces, start]
  split <;> simp [*]

/-- An absolute path starts with an empty piece. -/
theorem exists_pieces_eq_cons {p : Path} (h : p.isAbsolute = true) :
    ∃ rest, pieces p.text = "" :: rest := by
  obtain ⟨rest, hrest⟩ : ∃ rest, p.text.toList = '/' :: rest := by
    rw [isAbsolute, beq_iff_eq] at h
    exact List.head?_eq_some_iff.1 h
  refine ⟨pieces (String.ofList rest), ?_⟩
  have htext : p.text = "" ++ "/" ++ String.ofList rest := String.toList_inj.1 (by simp [hrest])
  rw [htext, pieces_append_slash, pieces_empty, List.singleton_append]

/-- **A normal path has pieces of the path**, in the same order. -/
theorem spelled_sublist (p : Path) : (spelled p.stack).Sublist (pieces p.text) := by
  have hfree : ∀ part ∈ pieces p.text, SlashFree part := fun _ => slashFree_of_mem_pieces
  rw [stack_eq, start]
  split
  · rename_i habsolute
    obtain ⟨rest, hrest⟩ := exists_pieces_eq_cons habsolute
    rw [hrest] at hfree ⊢
    rw [List.foldl_cons, pushPiece_empty]
    exact spelled_foldl_sublist ⟨[], [.root], areLegal_nil, .inl rfl, rfl⟩
      fun part hpart => hfree part (List.mem_cons_of_mem _ hpart)
  · exact spelled_foldl_sublist ⟨[], [], areLegal_nil, .inr ⟨0, rfl⟩, rfl⟩ hfree

/-- What is written for a path that goes through a name, up or down. -/
theorem text_normalize {p : Path} (hne : p.stack ≠ []) (hroot : p.stack ≠ [.root]) :
    p.normalize.text = joined (spelled p.stack) := by
  have hsteps : p.normalize = ofComponents p.stack.reverse := by
    rw [normalize, normalSteps_components]
    split
    · simp_all
    · rfl
  rw [hsteps, ofComponents, if_neg fun heq => hroot (List.reverse_eq_iff.1 heq)]
  rfl

theorem pieces_normalize {p : Path} (hne : p.stack ≠ []) (hroot : p.stack ≠ [.root]) :
    pieces p.normalize.text = spelled p.stack := by
  rw [text_normalize hne hroot]
  refine pieces_joined (by simpa [spelled] using hne) fun part hpart => ?_
  exact slashFree_of_mem_pieces (p.spelled_sublist.subset hpart)

theorem toList_joined_sublist {parts others : List String} (h : parts.Sublist others) :
    (joined parts).toList.Sublist (joined others).toList := by
  rcases eq_or_ne parts [] with rfl | hne
  · simp
  · have hothers : others ≠ [] := by
      rintro rfl
      exact hne (List.sublist_nil.1 h)
    rw [← List.cons_sublist_cons (a := '/'), Url.cons_toList_joined hne,
      Url.cons_toList_joined hothers]
    exact h.flatMap _

/-- **A normal path is no longer than the path**, and only `.` may be new in it. -/
theorem toList_normalize_sublist {p : Path} (h : p.stack ≠ []) :
    p.normalize.text.toList.Sublist p.text.toList := by
  by_cases hroot : p.stack = [.root]
  · have habsolute := p.root_mem_stack_iff.1 (by simp [hroot])
    rw [isAbsolute, beq_iff_eq] at habsolute
    rw [normalize_eq_root_iff.2 hroot]
    exact List.singleton_sublist.2 (List.mem_of_head? habsolute)
  · rw [text_normalize h hroot]
    conv_rhs => rw [← joined_pieces p.text]
    exact toList_joined_sublist p.spelled_sublist

theorem root_mem_components_iff (p : Path) : .root ∈ p.components ↔ p.isAbsolute = true := by
  have hpieces : .root ∉ (pieces p.text).filterMap Component.ofPiece? := by
    intro hmem
    obtain ⟨piece, -, hpiece⟩ := List.mem_filterMap.1 hmem
    obtain hup | ⟨name, hname⟩ := eq_up_or_name_of_ofPiece? hpiece
    · exact absurd hup (by simp)
    · exact absurd hname (by simp)
  rw [components, List.mem_append, or_iff_left hpieces, lead]
  split
  · simp [*]
  · split <;> simp [*]

/-- A normal path is absolute when the path is. -/
theorem isAbsolute_normalize (p : Path) : p.normalize.isAbsolute = p.isAbsolute := by
  rw [Bool.eq_iff_iff, ← root_mem_components_iff, ← root_mem_stack_iff]
  by_cases h : p.stack = []
  · rw [normalize_eq_of_stack_eq_nil h, h]
    decide
  · rw [components_normalize h, List.mem_reverse]

theorem text_normalize_ne_empty (p : Path) : p.normalize.text ≠ "" := by
  intro hempty
  have hcomponents : p.normalize.components = [] := by
    rw [components, lead, isAbsolute, hempty]
    decide
  by_cases h : p.stack = []
  · rw [normalize_eq_of_stack_eq_nil h] at hempty
    exact absurd hempty (by decide)
  · rw [components_normalize h, List.reverse_eq_nil_iff] at hcomponents
    exact h hcomponents

/-! ## Joining -/

/-- What is joined behind a path has its pieces behind those of the path, less an empty
one at the end. -/
theorem exists_pieces_join (p : Path) {q : Path} (hq : q.isAbsolute = false) :
    ∃ front tail, pieces p.text = front ++ tail ∧ (tail = [] ∨ tail = [""]) ∧
      pieces (p.join q).text = front ++ pieces q.text := by
  rw [join, if_neg (by simp [hq])]
  by_cases hempty : p.text = ""
  · refine ⟨[], [""], by rw [hempty, pieces_empty, List.nil_append], .inr rfl, ?_⟩
    rw [if_pos (Or.inl hempty), hempty, String.empty_append, List.nil_append]
  by_cases hslash : p.text.toList.getLast? = some '/'
  · obtain ⟨s, hs⟩ := exists_eq_append_slash hslash
    refine ⟨pieces s, [""], ?_, .inr rfl, ?_⟩
    · rw [hs, ← String.append_empty (s := s ++ "/"), pieces_append_slash, pieces_empty]
    · rw [if_pos (Or.inr hslash), hs, pieces_append_slash]
  · refine ⟨pieces p.text, [], (List.append_nil _).symm, .inl rfl, ?_⟩
    rw [if_neg (not_or.2 ⟨hempty, hslash⟩), pieces_append_slash]

/-- What is joined behind a path stands behind the same text, whatever it is. -/
theorem exists_text_join (p : Path) : ∃ front, ∀ q : Path, q.isAbsolute = false →
    (p.join q).text = front ++ q.text := by
  by_cases hend : p.text = "" ∨ p.text.toList.getLast? = some '/'
  · exact ⟨p.text, fun q hq => by rw [join, if_neg (by simp [hq]), if_pos hend]⟩
  · exact ⟨p.text ++ "/", fun q hq => by rw [join, if_neg (by simp [hq]), if_neg hend]⟩

/-- Joining names one after the other is joining them at once. -/
theorem join_joined_join (p : Path) {parts : List String} (h : AreParts parts) (hne : parts ≠ [])
    {part : String} (hpart : part ≠ "") (hfree : SlashFree part) :
    (p.join ⟨joined parts⟩).join ⟨part⟩ = p.join ⟨joined (parts ++ [part])⟩ := by
  have hmore := h.append (areParts_singleton hpart hfree)
  have hlast : (Path.mk part).isAbsolute = false := by
    rw [← joined_singleton part]
    exact isAbsolute_joined (areParts_singleton hpart hfree)
  have hchars : (joined parts).toList ≠ [] := by simpa using joined_ne_empty h hne
  obtain ⟨front, hfront⟩ := p.exists_text_join
  have htext := hfront ⟨joined parts⟩ (isAbsolute_joined h)
  have hend : ¬ ((p.join ⟨joined parts⟩).text = "" ∨
      (p.join ⟨joined parts⟩).text.toList.getLast? = some '/') := by
    rw [htext, String.toList_append, List.getLast?_append_of_ne_nil _ hchars, not_or]
    exact ⟨by simp [joined_ne_empty h hne], getLast?_joined_ne_slash h⟩
  have hall := hfront ⟨joined (parts ++ [part])⟩ (isAbsolute_joined hmore)
  have hstep :
      ((p.join ⟨joined parts⟩).join ⟨part⟩).text = front ++ joined parts ++ "/" ++ part := by
    rw [join.eq_1 (p.join _), if_neg (by simp [hlast]), if_neg hend, htext]
  have hsame : ((p.join ⟨joined parts⟩).join ⟨part⟩).text =
      (p.join ⟨joined (parts ++ [part])⟩).text := by
    rw [hstep, hall, joined_append_singleton hne]
    simp [String.append_assoc]
  exact congrArg Path.mk hsame

end Path
end DocSite
