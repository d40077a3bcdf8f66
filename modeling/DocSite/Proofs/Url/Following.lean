import Mathlib.Data.List.TakeWhile
import DocSite.Proofs.Url.Relative

/-!
# Following a relative address

A relative address that is written on a page is followed by the general rules for
addresses, which know nothing of sites.  It leads where the goal leads
(`resolve_relative`).

Three things have to come together.  The address has to be read as a path and as
nothing else: so the goal must be free of the characters that begin a scheme, a query or
a fragment (`Safe`).  The names must agree, which is what a detour is made for.  And the
slash at the end must agree: a detour that goes up only asks for a directory, which is
right when the goal asks for one, but wrong when the goal is a file of whose name the
page's directory or one around it is.  Such a page and such a file cannot both be there.
-/

namespace DocSite
namespace Url

/-! ## Texts that are paths only -/

/-- A text without the characters that end a scheme or begin a query or a fragment. -/
def Safe (text : String) : Prop :=
  ∀ c ∈ text.toList, c ≠ ':' ∧ c ≠ '?' ∧ c ≠ '#'

theorem safe_joined {parts : List String} (h : ∀ part ∈ parts, Safe part) :
    Safe (joined parts) := by
  induction parts with
  | nil => exact fun c hc => absurd hc (by simp)
  | cons first rest ih =>
    cases rest with
    | nil =>
      rw [joined_singleton]
      exact h first (List.mem_cons_self ..)
    | cons second others =>
      have hrest := ih fun part hpart => h part (List.mem_cons_of_mem _ hpart)
      intro c hc
      rw [joined_cons_cons, String.toList_append, String.toList_append] at hc
      rcases List.mem_append.1 hc with hc | hc
      · rcases List.mem_append.1 hc with hc | hc
        · exact h first (List.mem_cons_self ..) c hc
        · rw [List.mem_singleton.1 hc]
          decide
      · exact hrest c hc

theorem mem_toList_joined {parts : List String} {part : String} (h : part ∈ parts) {c : Char}
    (hc : c ∈ part.toList) : c ∈ (joined parts).toList := by
  obtain ⟨front, back, rfl⟩ := List.append_of_mem h
  rcases eq_or_ne front [] with rfl | hfront
  · rcases eq_or_ne back [] with rfl | hback
    · rwa [List.nil_append, joined_singleton]
    · rw [List.nil_append, ← List.singleton_append, joined_append (by simp) hback]
      simp [hc]
  · rw [joined_append hfront (by simp)]
    rcases eq_or_ne back [] with rfl | hback
    · simp [hc]
    · rw [← List.singleton_append (l := back), joined_append (by simp) hback]
      simp [hc]

theorem mem_of_mem_foldl_pushName {parts stack : List String} {name : String}
    (h : name ∈ parts.foldl pushName stack) : name ∈ parts ∨ name ∈ stack := by
  induction parts generalizing stack with
  | nil => exact .inr h
  | cons part rest ih =>
    rcases ih h with hmem | hmem
    · exact .inl (List.mem_cons_of_mem _ hmem)
    · rw [pushName] at hmem
      split at hmem
      · exact .inr hmem
      · split at hmem
        · exact .inr (List.mem_of_mem_tail hmem)
        · rcases List.mem_cons.1 hmem with rfl | hmem
          · exact .inl (List.mem_cons_self ..)
          · exact .inr hmem

/-- The names to which an address leads are pieces of it. -/
theorem Safe.of_mem_steps {url : String} (h : Safe url) {name : String} (hname : name ∈ steps url) :
    Safe name := by
  intro c hc
  have hpiece := (mem_of_mem_foldl_pushName (List.mem_reverse.1 hname)).resolve_right (by simp)
  refine h c ?_
  rw [← joined_pieces url]
  exact mem_toList_joined hpiece hc

theorem safe_relative {url : String} (h : Safe url) (other : String) :
    Safe (relative url other) := by
  have hdot : ∀ text ∈ ["", ".", ".."], Safe text := by
    simp [Safe]
  obtain ⟨shared, up, down, -, hgoal, hdetour⟩ :=
    exists_detour_eq (steps (directoryOf other)) (steps url)
  rw [relative_eq]
  refine safe_joined fun part hpart => ?_
  rcases List.mem_append.1 hpart with hpart | hpart
  · rw [way] at hpart
    split at hpart
    · exact hdot part (by rw [List.mem_singleton.1 hpart]; decide)
    · rw [hdetour] at hpart
      rcases List.mem_append.1 hpart with hpart | hpart
      · exact hdot part (by rw [List.eq_of_mem_replicate hpart]; decide)
      · exact h.of_mem_steps (by rw [hgoal]; exact List.mem_append_right _ hpart)
  · exact hdot part (by rw [eq_empty_of_mem_finalSlash hpart]; decide)

/-- A safe text that does not begin with two slashes is read as a path. -/
theorem Address.ofText_of_safe {text : String} (h : Safe text)
    (hslashes : ¬ ['/', '/'] <+: text.toList) : ofText text = ⟨none, none, text, none, none⟩ := by
  have hscheme : cutScheme text.toList = (none, text.toList) := by
    rw [cutScheme]
    split
    · rename_i rest hcolon
      -- the colon would have to be a character of the text
      have hmem : ':' ∈ text.toList :=
        List.mem_of_mem_drop (by rw [hcolon]; exact List.mem_cons_self ..)
      exact absurd rfl (h ':' hmem).1
    · rfl
  have hauthority : cutAuthority text.toList = (none, text.toList) := by
    rw [cutAuthority]
    rintro rest heq
    exact hslashes ⟨rest, heq.symm⟩
  have hpath : text.toList.takeWhile (fun c => c ≠ '?' ∧ c ≠ '#') = text.toList :=
    List.takeWhile_eq_self_iff.2 fun c hc => decide_eq_true (h c hc).2
  simp only [ofText, hscheme, hauthority, hpath, List.drop_length, cutQuery, cutFragment,
    Option.map_none, String.ofList_toList]

/-- The address of a page is read as a path. -/
theorem ofText_slash_append_joined {front : List String} {last : String} (hfront : AreParts front)
    (hlast : SlashFree last) (hsafe : Safe (joined (front ++ [last]))) :
    Address.ofText ("/" ++ joined (front ++ [last])) =
      ⟨none, none, "/" ++ joined (front ++ [last]), none, none⟩ := by
  have htext :
      ("/" ++ joined (front ++ [last])).toList = '/' :: (joined (front ++ [last])).toList :=
    String.toList_append
  refine Address.ofText_of_safe (fun c hc => ?_) ?_
  · rw [htext] at hc
    rcases List.mem_cons.1 hc with rfl | hc
    · decide
    · exact hsafe c hc
  · rw [htext, List.cons_prefix_cons]
    rintro ⟨-, more, hmore⟩
    exact head?_joined_append_ne_slash hfront hlast (by rw [← hmore]; rfl)

/-! ## Where it leads -/

theorem toList_slash_append_joined {parts : List String} (hne : parts ≠ []) :
    ("/" ++ joined parts).toList = written parts := by
  rw [String.toList_append, ← cons_toList_joined hne]
  rfl

/-- An address is put in place of what stands behind the last slash of a page's path. -/
theorem merged_eq {page : Address} {front : List String} {last : String}
    (hpage : page.path = "/" ++ joined (front ++ [last])) (hlast : SlashFree last)
    {parts : List String} (hne : parts ≠ []) :
    (page.merged (joined parts)).toList = written (front ++ parts) := by
  have hnonempty : page.path ≠ "" := by
    rw [hpage]
    intro hempty
    have hlist := congrArg String.toList hempty
    simp at hlist
  have hpath : page.path.toList = written front ++ '/' :: last.toList := by
    rw [hpage, toList_slash_append_joined (by simp)]
    simp
  rw [Address.merged, if_neg fun h => hnonempty h.2, hpath, dropWhile_reverse_append_cons hlast,
    String.toList_append, String.toList_ofList, List.reverse_cons, List.reverse_reverse,
    List.append_assoc, List.singleton_append, cons_toList_joined hne, written_append]

/-- The path of an address that is read against a page. -/
theorem resolve_ofText_joined {page : Address} {front : List String} {last : String}
    (hpage : page.path = "/" ++ joined (front ++ [last])) (hlast : SlashFree last)
    {first : String} {rest : List String} (hfirst : first ≠ "")
    (hfree : SlashFree first) (hsafe : Safe (joined (first :: rest))) :
    page.resolve (.ofText (joined (first :: rest))) =
      ⟨page.scheme, page.authority,
        String.ofList (removeDots [] (written (front ++ first :: rest))), none, none⟩ := by
  have hhead : (joined (first :: rest)).toList.head? ≠ some '/' := by
    rw [head?_joined_cons hfirst]
    exact fun hslash => hfree (List.mem_of_head? hslash)
  have hslashes : ¬ ['/', '/'] <+: (joined (first :: rest)).toList := by
    rintro ⟨more, hmore⟩
    rw [← hmore] at hhead
    exact hhead rfl
  have hnonempty : joined (first :: rest) ≠ "" := by
    intro hempty
    have hnone := head?_joined_cons hfirst rest
    rw [hempty, String.toList_empty, List.head?_nil, eq_comm, List.head?_eq_none_iff] at hnone
    exact hfirst (by simpa using hnone)
  rw [Address.ofText_of_safe hsafe hslashes, Address.resolve, if_neg (by simp), if_neg (by simp),
    if_neg hnonempty, if_neg hhead, Address.withoutDots, merged_eq hpage hlast (by simp)]

theorem finalSlash_joined {front : List String} {last : String} (hlast : SlashFree last) :
    finalSlash (joined (front ++ [last])) = if last = "" ∧ front ≠ [] then [""] else [] := by
  rw [finalSlash]
  by_cases hempty : last = ""
  · subst hempty
    rcases eq_or_ne front [] with rfl | hfront
    · simp
    · rw [joined_append_singleton hfront, if_pos (by simp), if_pos ⟨rfl, hfront⟩]
  · rw [getLast?_joined_append hempty, if_neg fun hslash => hlast (List.mem_of_getLast? hslash),
      if_neg fun h => hempty h.1]

theorem slashFree_of_mem_concat {front : List String} {last : String}
    (hfront : ∀ part ∈ front, SlashFree part) (hlast : SlashFree last) :
    ∀ part ∈ front ++ [last], SlashFree part := by
  intro part hpart
  rcases List.mem_append.1 hpart with hpart | hpart
  · exact hfront part hpart
  · exact List.mem_singleton.1 hpart ▸ hlast

theorem isLegalName_of_not_asksDirectory {part : String} (hfree : SlashFree part)
    (h : ¬ AsksDirectory part) : IsLegalName part :=
  ⟨fun heq => h (.inl heq), fun heq => h (.inr (.inl heq)), fun heq => h (.inr (.inr heq)), hfree⟩

/-- The last piece of a way asks for a directory when the way only goes up, and otherwise
it is the last name of the goal. -/
theorem asksDirectory_iff_of_way {start goal up : List String} {target : String}
    (hgoal : AreLegal goal) (h : way start goal = up ++ [target]) :
    AsksDirectory target ↔ goal <+: start := by
  constructor
  · intro hasks
    by_contra hbegins
    have hlast := getLast?_detour hbegins
    have hne : detour start goal ≠ [] := by
      intro hnil
      rw [hnil, List.getLast?_nil, eq_comm, List.getLast?_eq_none_iff] at hlast
      exact hbegins (hlast ▸ List.nil_prefix)
    rw [way, if_neg hne] at h
    rw [h, List.getLast?_concat] at hlast
    have hlegal := hgoal target (List.mem_of_getLast? hlast.symm)
    exact hasks.elim hlegal.1 fun hdots => hdots.elim hlegal.2.1 hlegal.2.2.1
  · intro hbegins
    obtain ⟨count, hdetour⟩ := exists_detour_eq_replicate hbegins
    have hmem : target ∈ way start goal := by simp [h]
    rw [way] at hmem
    split at hmem
    · exact .inr (.inl (List.mem_singleton.1 hmem))
    · rw [hdetour] at hmem
      exact .inr (.inr (List.eq_of_mem_replicate hmem))

theorem getLast?_settled (front : List String) {last : String} (h : IsLegalName last) :
    (settled (front ++ [last])).getLast? = some last := by
  rw [settled, List.foldl_append, List.foldl_cons, List.foldl_nil, pushName_of_isLegalName h,
    List.reverse_cons, List.getLast?_concat]

/-- What is left of a path without its dots. -/
theorem removeDots_nil_written {front : List String} (hfront : AreParts front) {last : String}
    (hlast : SlashFree last) : removeDots [] (written (front ++ [last])) =
      written (settled (front ++ [last]) ++ if AsksDirectory last then [""] else []) := by
  have hdots := removeDots_written hfront hlast (by simp : ∀ name ∈ [], SlashFree name)
  rwa [List.reverse_nil, written_nil] at hdots

/-- The path of a goal, without its dots. -/
theorem withoutDots_slash_append_joined {front : List String} (hfront : AreParts front)
    {last : String} (hlast : SlashFree last) :
    Address.withoutDots ("/" ++ joined (front ++ [last])) = String.ofList (written
      (settled (front ++ [last]) ++ if AsksDirectory last then [""] else [])) := by
  rw [Address.withoutDots, toList_slash_append_joined (by simp),
    removeDots_nil_written hfront hlast]

/-- What is written says which pieces it is made of. -/
theorem eq_of_written_eq {parts others : List String} (hparts : ∀ part ∈ parts, SlashFree part)
    (hothers : ∀ part ∈ others, SlashFree part) (h : written parts = written others) :
    parts = others := by
  rcases eq_or_ne parts [] with rfl | hne
  · cases others with
    | nil => rfl
    | cons first rest => simp at h
  · have hne' : others ≠ [] := by
      rintro rfl
      obtain ⟨first, rest, rfl⟩ := List.exists_cons_of_ne_nil hne
      simp at h
    rw [← cons_toList_joined hne, ← cons_toList_joined hne', List.cons.injEq] at h
    rw [← pieces_joined hne hparts, ← pieces_joined hne' hothers, String.toList_inj.1 h.2]

/-- Names, perhaps with a slash behind them, are read off what is written. -/
theorem written_finished_inj {names others : List String} (hnames : AreLegal names)
    (hothers : AreLegal others) {slash slash' : Prop} [Decidable slash] [Decidable slash'] :
    written (names ++ if slash then [""] else []) =
        written (others ++ if slash' then [""] else []) ↔
      names = others ∧ (slash ↔ slash') := by
  have hfree : ∀ {names : List String} {slash : Prop} [Decidable slash], AreLegal names →
      ∀ part ∈ names ++ (if slash then [""] else []), SlashFree part := by
    intro names slash _ hlegal part hpart
    rcases List.mem_append.1 hpart with hpart | hpart
    · exact hlegal.slashFree part hpart
    · split at hpart
      · rw [List.mem_singleton.1 hpart]
        decide
      · simp at hpart
  have hfilled : ∀ {names : List String}, AreLegal names → ∀ front, names ≠ front ++ [""] := by
    rintro names hlegal front rfl
    exact (hlegal "" (by simp)).1 rfl
  constructor
  · intro heq
    have hparts := eq_of_written_eq (hfree hnames) (hfree hothers) heq
    by_cases hslash : slash <;> by_cases hslash' : slash' <;>
      simp only [hslash, hslash', if_true, if_false, List.append_nil] at hparts ⊢
    · exact ⟨List.append_cancel_right hparts, trivial⟩
    · exact absurd hparts.symm (hfilled hothers names)
    · exact absurd hparts (hfilled hnames others)
    · exact ⟨hparts, trivial⟩
  · rintro ⟨rfl, hiff⟩
    simp only [hiff]

section Resolving

variable {page : Address} {front : List String} {last : String}
  (hpage : page.path = "/" ++ joined (front ++ [last])) (hfront : AreParts front)
  (hlast : SlashFree last) {goalFront : List String} {goalLast : String}
  (hgoal : AreParts goalFront) (hgoalLast : SlashFree goalLast)
  (hsafe : Safe (joined (goalFront ++ [goalLast]))) {start : List String}
  (hstart : steps (directoryOf (joined (front ++ [last]))) = start)

include hpage hfront hlast hgoal hgoalLast hsafe hstart

/-- **What a relative address is read as**: the names to which the way leads from behind
the last slash of the page's path, and a slash if the goal ends in one or the way only
goes up. -/
theorem resolve_relative_eq :
    page.resolve
        (.ofText (relative (joined (goalFront ++ [goalLast])) (joined (front ++ [last])))) =
      ⟨page.scheme, page.authority, String.ofList (written
        (settled (front ++ way start (settled (goalFront ++ [goalLast]))) ++
          if goalLast = "" ∧ goalFront ≠ [] ∨ settled (goalFront ++ [goalLast]) <+: start
          then [""] else [])), none, none⟩ := by
  have hgoalPieces := slashFree_of_mem_concat hgoal.slashFree hgoalLast
  have hsteps : steps (joined (goalFront ++ [goalLast])) = settled (goalFront ++ [goalLast]) := by
    rw [steps_eq_settled, pieces_joined (by simp) hgoalPieces]
  have hlegal := areLegal_settled hgoalPieces
  have hsafeRelative := safe_relative hsafe (joined (front ++ [last]))
  rw [relative_eq, hsteps, hstart, finalSlash_joined hgoalLast] at hsafeRelative ⊢
  generalize settled (goalFront ++ [goalLast]) = goal at *
  have hparts := areParts_way start hlegal
  obtain ⟨first, rest, hfirst⟩ := List.exists_cons_of_ne_nil (way_ne_nil start goal)
  have hfirstPart := hparts first (by simp [hfirst])
  rw [hfirst, List.cons_append] at hsafeRelative ⊢
  rw [resolve_ofText_joined hpage hlast hfirstPart.1 hfirstPart.2 hsafeRelative, ← List.cons_append,
    ← hfirst]
  by_cases hslash : goalLast = "" ∧ goalFront ≠ []
  · rw [if_pos hslash, if_pos (.inl hslash), ← List.append_assoc,
      removeDots_nil_written (hfront.append hparts) (by decide), settled_append_empty,
      if_pos (.inl rfl)]
  · obtain ⟨up, target, hway⟩ := (List.eq_nil_or_concat' (way start goal)).resolve_left
      (way_ne_nil _ _)
    have hup : AreParts up := fun part hpart => hparts part (by simp [hway, hpart])
    have htarget : SlashFree target := (hparts target (by simp [hway])).2
    rw [if_neg hslash, List.append_nil, hway, ← List.append_assoc,
      removeDots_nil_written (hfront.append hup) htarget]
    simp only [hslash, false_or, asksDirectory_iff_of_way hlegal hway]

/-- **When a relative address leads to its goal**: the names must agree, and so must the
slashes at the end. -/
theorem resolve_relative_eq_iff :
    page.resolve
        (.ofText (relative (joined (goalFront ++ [goalLast])) (joined (front ++ [last])))) =
        ⟨page.scheme, page.authority,
          Address.withoutDots ("/" ++ joined (goalFront ++ [goalLast])), none, none⟩ ↔
      settled (front ++ way start (settled (goalFront ++ [goalLast]))) =
          settled (goalFront ++ [goalLast]) ∧
        (goalLast = "" ∧ goalFront ≠ [] ∨ settled (goalFront ++ [goalLast]) <+: start ↔
          AsksDirectory goalLast) := by
  have hgoalPieces := slashFree_of_mem_concat hgoal.slashFree hgoalLast
  have hway := hfront.append (areParts_way start (areLegal_settled hgoalPieces))
  rw [resolve_relative_eq hpage hfront hlast hgoal hgoalLast hsafe hstart,
    withoutDots_slash_append_joined hgoal hgoalLast, Address.mk.injEq, String.ofList_inj,
    written_finished_inj (areLegal_settled hway.slashFree) (areLegal_settled hgoalPieces)]
  simp

end Resolving

/-- **A relative address leads where its goal leads.**  The page lies in the directory
of its path.  The goal ends in a slash, or it is the root, or it is a file, and then
the page's directory neither has its name nor lies below one that has. -/
theorem resolve_relative {page : Address} {front : List String} {last : String}
    (hpage : page.path = "/" ++ joined (front ++ [last])) (hfront : AreParts front)
    (hlast : SlashFree last) (hdirectory : last = "" ∨ '.' ∈ last.toList)
    {goalFront : List String} {goalLast : String} (hgoal : AreParts goalFront)
    (hgoalLast : SlashFree goalLast) (hsafe : Safe (joined (goalFront ++ [goalLast])))
    (hend : goalLast = "" ∨ settled (goalFront ++ [goalLast]) = [] ∨
      IsLegalName goalLast ∧ ¬ settled (goalFront ++ [goalLast]) <+: settled front) :
    page.resolve
        (.ofText (relative (joined (goalFront ++ [goalLast])) (joined (front ++ [last])))) =
      ⟨page.scheme, page.authority,
        Address.withoutDots ("/" ++ joined (goalFront ++ [goalLast])), none, none⟩ := by
  have hgoalPieces := slashFree_of_mem_concat hgoal.slashFree hgoalLast
  have hstart := steps_directoryOf (slashFree_of_mem_concat hfront.slashFree hlast) hdirectory
  rw [resolve_relative_eq_iff hpage hfront hlast hgoal hgoalLast hsafe hstart]
  refine ⟨settled_append_way front (areLegal_settled hgoalPieces), ?_⟩
  rcases hend with rfl | hroot | ⟨hname, hbelow⟩
  · refine iff_of_true ?_ (.inl rfl)
    rcases eq_or_ne goalFront [] with rfl | hne
    · exact .inr List.nil_prefix
    · exact .inl ⟨rfl, hne⟩
  · refine iff_of_true (.inr (by rw [hroot]; exact List.nil_prefix)) ?_
    by_contra hasks
    have hlastName := getLast?_settled goalFront (isLegalName_of_not_asksDirectory hgoalLast hasks)
    rw [hroot] at hlastName
    simp at hlastName
  · exact iff_of_false (fun h => h.elim (fun hempty => hname.1 hempty.1) hbelow)
      fun hasks => hasks.elim hname.1 fun hdots => hdots.elim hname.2.1 hname.2.2.1

end Url
end DocSite
