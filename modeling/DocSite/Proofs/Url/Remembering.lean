import Mathlib.Data.List.Dedup
import Mathlib.Data.List.DropRight
import Mathlib.Data.List.Perm.Basic
import DocSite.Url.Resolver

/-!
# A resolver in use

A resolver is asked for addresses and for links as they are written, how much it
remembers, and to forget; in any order and as often as one likes.  This module compares
such a session with one in which there is no memory.  There every address is worked out
anew, and the size is read off the calls themselves: it is the number of different pairs
that the calls since the last `clear` had worked out (`pairsSinceClear`).

The answers are the same for every row of calls (`answers_empty`).  What carries the
comparison is that the memory holds the pairs of these calls and no others
(`Remembers`).  Every call keeps it so (`Remembers.answer`), although a link is looked up
under another name when it is empty, and not at all when it does not depend on the page
or no page is given.
-/

namespace DocSite
namespace Url

/-- A link, with the current directory in the place of an empty one. -/
def orHere (link : String) : String :=
  if link = "" then "." else link

/-- A link as it is written on a page, without a memory: kept when it does not depend on
the page, written against the page when one is given, and put behind `base` otherwise. -/
def linkOn (link : String) (page : Option String) (base : String) : String :=
  if kind (orHere link) ≠ .relative then link
  else
    match page with
    | some page => relative (orHere link) page
    | none => under base (orHere link)

/-- A link that does not depend on the page is not empty. -/
theorem orHere_of_kind_ne {link : String} (h : kind (orHere link) ≠ .relative) :
    orHere link = link := by
  rw [orHere, if_neg]
  rintro rfl
  exact h (by decide)

namespace Resolver

/-! ## What can be asked -/

/-- What can be asked of a resolver. -/
inductive Call where
  /-- An address as it is written on another. -/
  | relative (url other : String)
  /-- A link as it is written on a page. -/
  | resolve (link : String) (page : Option String) (base : String)
  /-- How many pairs are remembered. -/
  | size
  /-- Everything is forgotten. -/
  | clear
  deriving DecidableEq, Inhabited, Repr

/-- What is answered. -/
inductive Answer where
  | text (address : String)
  | number (count : Nat)
  | done
  deriving DecidableEq, Inhabited, Repr

/-- What a resolver answers, and the resolver that is left. -/
def answer (r : Resolver) : Call → Answer × Resolver
  | .relative url other => (.text (r.relative url other).1, (r.relative url other).2)
  | .resolve link page base => (.text (r.resolve link page base).1, (r.resolve link page base).2)
  | .size => (.number r.size, r)
  | .clear => (.done, empty)

/-- What a resolver answers to calls in turn. -/
def answers (r : Resolver) : List Call → List Answer
  | [] => []
  | call :: rest => (r.answer call).1 :: answers (r.answer call).2 rest

/-! ## The same without a memory -/

/-- The pair whose relative address a call is about.  A link is about one when it depends
on the page and a page is given. -/
def Call.pair? : Call → Option (String × String)
  | .relative url other => some (url, other)
  | .resolve link page _ =>
    if kind (orHere link) = .relative then page.map fun page => (orHere link, page) else none
  | .size => none
  | .clear => none

/-- The pairs that calls were about since the last `clear` among them. -/
def pairsSinceClear (earlier : List Call) : List (String × String) :=
  (earlier.rtakeWhile fun call => call ≠ .clear).filterMap Call.pair?

/-- What is answered to a call after others, when nothing is remembered but the calls. -/
def Call.expected (earlier : List Call) : Call → Answer
  | .relative url other => .text (Url.relative url other)
  | .resolve link page base => .text (linkOn link page base)
  | .size => .number (pairsSinceClear earlier).dedup.length
  | .clear => .done

theorem pairsSinceClear_append_clear (earlier : List Call) :
    pairsSinceClear (earlier ++ [.clear]) = [] := by
  rw [pairsSinceClear, List.rtakeWhile_concat_neg _ _ _ (by decide), List.filterMap_nil]

theorem pairsSinceClear_append {call : Call} (h : call ≠ .clear) (earlier : List Call) :
    pairsSinceClear (earlier ++ [call]) = pairsSinceClear earlier ++ call.pair?.toList := by
  rw [pairsSinceClear, List.rtakeWhile_concat_pos _ _ _ (by simpa using h), List.filterMap_append,
    pairsSinceClear, List.filterMap_cons, List.filterMap_nil]
  cases call.pair? <;> rfl

/-! ## One call -/

/-- The pairs whose relative addresses are remembered. -/
def pairs (r : Resolver) : List (String × String) :=
  r.memory.map Prod.fst

theorem remembered?_eq_some {r : Resolver} {url other known : String}
    (h : r.remembered? url other = some known) :
    (url, other) ∈ r.pairs ∧ known = Url.relative url other := by
  obtain ⟨entry, hentry, rfl⟩ := Option.map_eq_some_iff.1 h
  have hmem := List.mem_of_find?_eq_some hentry
  have hkey : entry.1 = (url, other) := by simpa using List.find?_some hentry
  refine ⟨hkey ▸ List.mem_map_of_mem hmem, ?_⟩
  rw [r.right entry hmem, hkey]

/-- **An address from memory is the one that would be worked out.** -/
theorem fst_relative (r : Resolver) (url other : String) :
    (r.relative url other).1 = Url.relative url other := by
  rw [relative]
  split
  · exact (remembered?_eq_some ‹_›).2
  · rfl

theorem mem_pairs_relative (r : Resolver) (url other : String) (pair : String × String) :
    pair ∈ (r.relative url other).2.pairs ↔ pair ∈ r.pairs ∨ pair = (url, other) := by
  rw [relative]
  split
  · have hmem := (remembered?_eq_some ‹_›).1
    exact ⟨.inl, fun h => h.elim id fun heq => heq ▸ hmem⟩
  · rw [pairs, remember, List.map_cons, List.mem_cons, or_comm, ← pairs]

theorem resolve_of_kind_ne {link : String} (h : kind (orHere link) ≠ .relative) (r : Resolver)
    (page : Option String) (base : String) : r.resolve link page base = (link, r) := by
  simp only [resolve, ← orHere.eq_1]
  split
  · exact absurd ‹_› h
  · exact absurd ‹_› h
  · rw [orHere_of_kind_ne h]

theorem resolve_on_page {link : String} (h : kind (orHere link) = .relative) (r : Resolver)
    (page base : String) : r.resolve link (some page) base = r.relative (orHere link) page := by
  simp only [resolve, ← orHere.eq_1, h]

theorem resolve_on_base {link : String} (h : kind (orHere link) = .relative) (r : Resolver)
    (base : String) : r.resolve link none base = (under base (orHere link), r) := by
  simp only [resolve, ← orHere.eq_1, h]

theorem fst_resolve (r : Resolver) (link : String) (page : Option String) (base : String) :
    (r.resolve link page base).1 = linkOn link page base := by
  unfold linkOn
  split
  · rw [resolve_of_kind_ne ‹_›]
  · rename_i hkind
    rw [not_not] at hkind
    cases page with
    | some page => rw [resolve_on_page hkind, fst_relative]
    | none => rw [resolve_on_base hkind]

/-- A call adds the pair that it is about to those that are remembered, and adds nothing
else. -/
theorem mem_pairs_answer {call : Call} (h : call ≠ .clear) (r : Resolver)
    (pair : String × String) :
    pair ∈ (r.answer call).2.pairs ↔ pair ∈ r.pairs ∨ pair ∈ call.pair? := by
  cases call with
  | relative url other =>
    rw [answer, mem_pairs_relative, Call.pair?, Option.mem_some, eq_comm]
  | resolve link page base =>
    rw [answer, Call.pair?]
    by_cases hkind : kind (orHere link) = .relative
    · rw [if_pos hkind]
      cases page with
      | some page =>
        rw [resolve_on_page hkind, mem_pairs_relative, Option.map_some, Option.mem_some, eq_comm]
      | none => simp [resolve_on_base hkind]
    · simp [resolve_of_kind_ne hkind, if_neg hkind]
  | size => simp [answer, Call.pair?]
  | clear => exact absurd rfl h

/-! ## A session -/

/-- The remembered pairs are those that some calls were about since the last `clear`. -/
def Remembers (r : Resolver) (earlier : List Call) : Prop :=
  ∀ pair, pair ∈ r.pairs ↔ pair ∈ pairsSinceClear earlier

theorem remembers_empty : empty.Remembers [] :=
  fun _ => Iff.rfl

/-- No pair is remembered twice, so the size counts the different ones. -/
theorem Remembers.size {r : Resolver} {earlier : List Call} (h : r.Remembers earlier) :
    r.size = (pairsSinceClear earlier).dedup.length := by
  have hperm : r.pairs.Perm (pairsSinceClear earlier).dedup :=
    (List.perm_ext_iff_of_nodup r.distinct (List.nodup_dedup _)).2 fun pair =>
      (h pair).trans List.mem_dedup.symm
  rw [Resolver.size, ← hperm.length_eq, pairs, List.length_map]

theorem Remembers.fst_answer {r : Resolver} {earlier : List Call} (h : r.Remembers earlier)
    (call : Call) : (r.answer call).1 = call.expected earlier := by
  cases call with
  | relative url other => rw [Resolver.answer, fst_relative, Call.expected]
  | resolve link page base => rw [Resolver.answer, fst_resolve, Call.expected]
  | size => rw [Resolver.answer, h.size, Call.expected]
  | clear => rfl

/-- Every call keeps the memory in step with the calls. -/
theorem Remembers.answer {r : Resolver} {earlier : List Call} (h : r.Remembers earlier)
    (call : Call) : (r.answer call).2.Remembers (earlier ++ [call]) := by
  intro pair
  by_cases hclear : call = .clear
  · rw [hclear, pairsSinceClear_append_clear]
    exact Iff.rfl
  · rw [mem_pairs_answer hclear, pairsSinceClear_append hclear, List.mem_append, h pair,
      Option.mem_toList, Option.mem_def]

theorem Remembers.answers {r : Resolver} {earlier : List Call} (h : r.Remembers earlier)
    (calls : List Call) : r.answers calls =
      calls.mapIdx fun position call => call.expected (earlier ++ calls.take position) := by
  induction calls generalizing r earlier with
  | nil => rfl
  | cons call rest ih =>
    rw [Resolver.answers, List.mapIdx_cons, List.take_zero, List.append_nil, h.fst_answer,
      ih (h.answer call)]
    simp only [List.take_succ_cons, List.append_assoc, List.singleton_append]

/-- **The memory of a resolver cannot be seen but by its size.**  Whatever is asked of a
new resolver in turn, every answer is the one that is worked out without a memory, and the
size is the number of different pairs that the calls since the last `clear` were about. -/
theorem answers_empty (calls : List Call) :
    empty.answers calls =
      calls.mapIdx fun position call => call.expected (calls.take position) :=
  remembers_empty.answers calls

/-- Both entries share the memory, an empty link is looked up as `.`, and what leads out
of the site leaves no trace. -/
example : empty.answers
    [.relative "." "a/", .resolve "" (some "a/") "", .resolve "//host" (some "a/") "",
      .resolve "b" none "c", .size, .clear, .size] =
    [.text "..", .text "..", .text "//host", .text "c/b", .number 1, .done, .number 0] := by
  decide

end Resolver
end Url
end DocSite
