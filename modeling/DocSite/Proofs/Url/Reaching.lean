import DocSite.Proofs.Url.Following

/-!
# Which relative addresses miss their goals

A relative address is written by a guess: a page whose last piece has no dot counts as a
directory, although a browser takes the directory of every page from its last slash.  And
it is written without knowing whether its goal is a file or a directory.  So it misses
its goal in two cases (`Misleads`), and in no others (`resolve_relative_iff`):

* the page is a name without a dot, and the first name of the goal is that of the page;
  then the address goes up too often;
* the page lies in a directory, and the goal is a file whose names are those of that
  directory or of one around it; then the address only goes up, and leads to a directory.
-/

namespace DocSite
namespace Url

/-- A page whose last piece is a name without a dot. -/
def CountsAsDirectory (page : String) : Prop :=
  (cutLast page).2 ≠ "" ∧ '.' ∉ (cutLast page).2.toList

instance (page : String) : Decidable (CountsAsDirectory page) :=
  inferInstanceAs (Decidable (_ ∧ _))

/-- The relative address of a goal that is written on a page does not lead to the goal. -/
def Misleads (goal page : String) : Prop :=
  CountsAsDirectory page ∧ steps goal ≠ [] ∧ (steps page).head? = (steps goal).head? ∨
    ¬ CountsAsDirectory page ∧ ¬ AsksDirectory (cutLast goal).2 ∧
      steps goal <+: steps (directoryOf page)

instance (goal page : String) : Decidable (Misleads goal page) :=
  inferInstanceAs (Decidable (_ ∨ _))

/-! ## Pages that count as directories -/

theorem settled_append_way_eq (front start goal : List String) :
    settled (front ++ way start goal) = settled (front ++ detour start goal) := by
  rw [way]
  split
  · rename_i hnil
    rw [hnil, settled, List.foldl_append, List.append_nil]
    rfl
  · rfl

/-- Going up from names and then down takes back as many of them as there are. -/
theorem settled_append_replicate (front : List String) (count : Nat) {down : List String}
    (h : AreLegal down) : settled (front ++ (List.replicate count ".." ++ down)) =
      (settled front).take ((settled front).length - count) ++ down := by
  have hstack : front.foldl pushName [] = (settled front).reverse := by
    rw [settled, List.reverse_reverse]
  rw [settled, List.foldl_append, List.foldl_append, hstack, foldl_pushName_replicate,
    foldl_pushName_of_areLegal h, List.reverse_append, List.reverse_reverse, List.drop_reverse,
    List.reverse_reverse]

/-- **A way from a page that is taken for a directory leads to its goal exactly when the
two share no name.**  Otherwise it goes up once too often. -/
theorem settled_append_way_of_name_iff (front : List String) (last : String) {goal : List String}
    (h : AreLegal goal) : settled (front ++ way (settled front ++ [last]) goal) = goal ↔
      ¬ (goal ≠ [] ∧ (settled front ++ [last]).head? = goal.head?) := by
  rw [settled_append_way_eq]
  by_cases hshared : goal ≠ [] ∧ (settled front ++ [last]).head? = goal.head?
  · refine iff_of_false (fun heq => ?_) (not_not.2 hshared)
    obtain ⟨name, goal, rfl⟩ := List.exists_cons_of_ne_nil hshared.1
    obtain ⟨first, start, hstart⟩ :=
      List.exists_cons_of_ne_nil (List.append_ne_nil_of_right_ne_nil (settled front)
        (List.cons_ne_nil last []))
    obtain rfl : first = name := by
      have hhead := hshared.2
      rw [hstart] at hhead
      exact Option.some.inj hhead
    obtain ⟨shared, up, down, rfl, rfl, hdetour⟩ := exists_detour_eq start goal
    have hlength := congrArg List.length hstart
    have hfirst : detour (first :: (shared ++ up)) (first :: (shared ++ down)) =
        detour (shared ++ up) (shared ++ down) := by
      rw [detour, splitCommon, if_pos rfl]
      rfl
    have hdown : AreLegal down := fun name hname =>
      h name (List.mem_cons_of_mem _ (List.mem_append_right _ hname))
    rw [hstart, hfirst, hdetour, settled_append_replicate front _ hdown] at heq
    -- the names that are left of the page's directory are one too few
    have hcount := congrArg List.length heq
    simp only [List.length_append, List.length_cons, List.length_nil, List.length_take]
      at hlength hcount
    omega
  · refine iff_of_true ?_ hshared
    have hapart : goal = [] ∨ (settled front ++ [last]).head? ≠ goal.head? := by
      rw [not_and_or, not_not] at hshared
      exact hshared
    rw [detour, splitCommon_of_head?_ne hapart]
    show settled (front ++ (List.replicate _ ".." ++ goal)) = goal
    rw [settled_append_replicate front _ h, List.length_append, List.length_singleton,
      Nat.sub_eq_zero_of_le (Nat.le_succ _), List.take_zero, List.nil_append]

/-- A page that counts as a directory has its last piece for its last name. -/
theorem steps_of_counts {front : List String} {last : String}
    (hpieces : ∀ part ∈ front ++ [last], SlashFree part)
    (h : CountsAsDirectory (joined (front ++ [last]))) :
    steps (joined (front ++ [last])) = settled front ++ [last] := by
  rw [CountsAsDirectory, cutLast_joined hpieces] at h
  have hdotless : '.' ∉ last.toList := h.2
  have hlegal : IsLegalName last := by
    refine ⟨h.1, ?_, ?_, hpieces last (by simp)⟩ <;> rintro rfl <;> exact hdotless (by decide)
  rw [steps_eq_settled, pieces_joined (by simp) hpieces, settled, List.foldl_append,
    List.foldl_cons, List.foldl_nil, pushName_of_isLegalName hlegal, List.reverse_cons, settled]

theorem directoryOf_of_counts {page : String} (h : CountsAsDirectory page) :
    directoryOf page = page := by
  rw [directoryOf, if_neg h.2]

/-! ## All pages -/

theorem head?_eq_of_isPrefix {names others : List String} (h : names <+: others)
    (hne : names ≠ []) : others.head? = names.head? := by
  obtain ⟨rest, rfl⟩ := h
  exact List.head?_append_of_ne_nil _ hne

/-- What an address can end in: a slash, the root, or a name. -/
def EndsWell (front : List String) (last : String) : Prop :=
  last = "" ∨ (front = [] ∧ last = ".") ∨ IsLegalName last

namespace EndsWell

variable {front : List String} {last : String}

theorem slash_or_root (h : EndsWell front last) (hasks : AsksDirectory last) :
    last = "" ∧ front ≠ [] ∨ settled (front ++ [last]) = [] := by
  rcases h with rfl | ⟨rfl, rfl⟩ | hname
  · rcases eq_or_ne front [] with rfl | hne
    · exact .inr rfl
    · exact .inl ⟨rfl, hne⟩
  · exact .inr rfl
  · exact (hasks.elim hname.1 fun hdots => hdots.elim hname.2.1 hname.2.2.1).elim

/-- An address that ends well and leads to the root asks for a directory. -/
theorem asksDirectory_of_root (h : EndsWell front last) (hroot : settled (front ++ [last]) = []) :
    AsksDirectory last := by
  rcases h with rfl | ⟨-, rfl⟩ | hname
  · exact .inl rfl
  · exact .inr (.inl rfl)
  · have hlast := getLast?_settled front hname
    rw [hroot] at hlast
    simp at hlast

/-- The slashes agree unless the goal is a file and the way only goes up. -/
theorem slashes_agree_iff (h : EndsWell front last) (start : List String) :
    (last = "" ∧ front ≠ [] ∨ settled (front ++ [last]) <+: start ↔ AsksDirectory last) ↔
      ¬ (¬ AsksDirectory last ∧ settled (front ++ [last]) <+: start) := by
  by_cases hasks : AsksDirectory last
  · refine iff_of_true (iff_of_true ?_ hasks) fun hfile => hfile.1 hasks
    refine (h.slash_or_root hasks).imp_right fun hroot => ?_
    rw [hroot]
    exact List.nil_prefix
  · have hfile : ¬ (last = "" ∧ front ≠ []) := fun hslash => hasks (.inl hslash.1)
    simp only [hfile, hasks, false_or, iff_false, not_false_eq_true, true_and]

end EndsWell

/-- **When a relative address misses its goal**: it is followed to the goal from every
page that does not mislead. -/
theorem resolve_relative_iff {page : Address} {front : List String} {last : String}
    (hpage : page.path = "/" ++ joined (front ++ [last])) (hfront : AreParts front)
    (hlast : SlashFree last) {goalFront : List String} {goalLast : String}
    (hgoal : AreParts goalFront) (hgoalLast : SlashFree goalLast)
    (hsafe : Safe (joined (goalFront ++ [goalLast]))) (hend : EndsWell goalFront goalLast) :
    page.resolve
        (.ofText (relative (joined (goalFront ++ [goalLast])) (joined (front ++ [last])))) =
        ⟨page.scheme, page.authority,
          Address.withoutDots ("/" ++ joined (goalFront ++ [goalLast])), none, none⟩ ↔
      ¬ Misleads (joined (goalFront ++ [goalLast])) (joined (front ++ [last])) := by
  have hpieces := slashFree_of_mem_concat hfront.slashFree hlast
  have hgoalPieces := slashFree_of_mem_concat hgoal.slashFree hgoalLast
  have hsteps : steps (joined (goalFront ++ [goalLast])) = settled (goalFront ++ [goalLast]) := by
    rw [steps_eq_settled, pieces_joined (by simp) hgoalPieces]
  have hlegal := areLegal_settled hgoalPieces
  have hroot := hend.asksDirectory_of_root
  have hreaches := resolve_relative_eq_iff hpage hfront hlast hgoal hgoalLast hsafe rfl
  rw [hreaches, hend.slashes_agree_iff, Misleads, cutLast_joined hgoalPieces, hsteps]
  generalize settled (goalFront ++ [goalLast]) = goal at *
  by_cases hcounts : CountsAsDirectory (joined (front ++ [last]))
  · rw [directoryOf_of_counts hcounts, steps_of_counts hpieces hcounts,
      settled_append_way_of_name_iff front last hlegal]
    simp only [hcounts, true_and, not_true_eq_false, false_and, or_false]
    -- a goal that is on the way up is not the root, and so it shares the first name
    refine and_iff_left_of_imp fun hapart hfile => hapart ⟨fun hnil => hfile.1 (hroot hnil), ?_⟩
    exact head?_eq_of_isPrefix hfile.2 fun hnil => hfile.1 (hroot hnil)
  · have hend' : last = "" ∨ '.' ∈ last.toList := by
      rwa [CountsAsDirectory, cutLast_joined hpieces, not_and_or, ne_eq, not_not, not_not]
        at hcounts
    rw [steps_directoryOf hpieces hend']
    simp only [settled_append_way front hlegal, hcounts, false_and, false_or, not_false_eq_true,
      true_and]

end Url
end DocSite
