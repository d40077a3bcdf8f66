import Mathlib.Data.List.Basic
import DocSite.Proofs.Path.Portable
import DocSite.Url.Relative

/-!
# How a browser follows an address

What is written in a link is read against the address of the page on which it
stands.  This module says how, by the generic rules for addresses and not by what a
site writes: an address is taken apart at its first colon, slashes, question mark and
number sign (`Address.ofText`), a relative one is put in place of what stands behind
the last slash of the page's path, and then the pieces `.` and `..` are taken out from
left to right (`removeDots`, `Address.resolve`).

Taking out the dots works on characters, with what is done so far as a text to which
pieces are added at the end.  `removeDots_written` says what it does to a path that is
given piece by piece: the names that are left are those that reading the pieces leaves
(`settled`), and there is a slash at the end when the last piece was `.`, `..` or empty.
-/

namespace DocSite
namespace Url

/-! ## Taking out the dots -/

/-- A text less its last piece and the slash before it. -/
def withoutLast (text : List Char) : List Char :=
  (text.reverse.dropWhile (· ≠ '/')).tail.reverse

theorem length_takeWhile_add_length_dropWhile (text : List Char) :
    (text.takeWhile (· ≠ '/')).length + (text.dropWhile (· ≠ '/')).length = text.length := by
  rw [← List.length_append, List.takeWhile_append_dropWhile]

/-- A path without its pieces `.` and `..`, behind what has been read of it.  At a
slash, a `.` is left out and a `..` takes the last piece back, if there is one; where
no slash is before them both are left out; and any other piece is kept. -/
def removeDots (done path : List Char) : List Char :=
  match path with
  | [] => done
  | c :: rest =>
    let piece := rest.takeWhile (· ≠ '/')
    let left := rest.dropWhile (· ≠ '/')
    if c = '/' ∧ piece = ['.'] then removeDots done ('/' :: left.tail)
    else if c = '/' ∧ piece = ['.', '.'] then removeDots (withoutLast done) ('/' :: left.tail)
    else if c :: piece = ['.'] ∨ c :: piece = ['.', '.'] then removeDots done left.tail
    else removeDots (done ++ c :: piece) left
termination_by path.length
decreasing_by
  all_goals
    have hlength := length_takeWhile_add_length_dropWhile rest
    simp only [List.length_cons, List.length_tail]
  · have hpiece : (rest.takeWhile (· ≠ '/')).length = 1 := congrArg List.length ‹_ ∧ _›.2
    omega
  · have hpiece : (rest.takeWhile (· ≠ '/')).length = 2 := congrArg List.length ‹_ ∧ _›.2
    omega
  · omega
  · omega

/-! ## Paths given piece by piece -/

/-- Pieces, each behind a slash. -/
def written (parts : List String) : List Char :=
  parts.flatMap fun part => '/' :: part.toList

@[simp] theorem written_nil : written [] = [] := rfl

@[simp] theorem written_cons (part : String) (parts : List String) :
    written (part :: parts) = '/' :: part.toList ++ written parts := by
  simp [written]

@[simp] theorem written_append (parts others : List String) :
    written (parts ++ others) = written parts ++ written others := by
  simp [written]

theorem cons_toList_joined {parts : List String} (hne : parts ≠ []) :
    '/' :: (joined parts).toList = written parts := by
  induction parts with
  | nil => exact absurd rfl hne
  | cons first rest ih =>
    cases rest with
    | nil => simp
    | cons second others =>
      rw [written_cons, ← ih (List.cons_ne_nil _ _), joined_cons_cons]
      simp

/-- Behind a piece without slashes comes the end or the next slash. -/
theorem takeWhile_append_written {part : String} (h : SlashFree part) (parts : List String) :
    (part.toList ++ written parts).takeWhile (· ≠ '/') = part.toList ∧
      (part.toList ++ written parts).dropWhile (· ≠ '/') = written parts := by
  rw [List.takeWhile_append_of_pos (ne_of_mem_of_notMem h),
    List.dropWhile_append_of_pos (ne_of_mem_of_notMem h)]
  cases parts with
  | nil => simp
  | cons next rest => simp

theorem withoutLast_written_append {part : String} (h : SlashFree part) (parts : List String) :
    withoutLast (written (parts ++ [part])) = written parts := by
  have hwritten : written (parts ++ [part]) = written parts ++ '/' :: part.toList := by simp
  rw [withoutLast, hwritten, dropWhile_reverse_append_cons h, List.tail_cons, List.reverse_reverse]

theorem withoutLast_written {names : List String} (h : ∀ name ∈ names, SlashFree name) :
    withoutLast (written names) = written names.dropLast := by
  rcases List.eq_nil_or_concat' names with rfl | ⟨front, last, rfl⟩
  · rfl
  · rw [withoutLast_written_append (h last (by simp)), List.dropLast_concat]

/-- What is done with the first piece of a path. -/
theorem removeDots_written_cons {part : String} (h : SlashFree part) (done : List Char)
    (rest : List String) : removeDots done (written (part :: rest)) =
      if part = "." then removeDots done ('/' :: (written rest).tail)
      else if part = ".." then removeDots (withoutLast done) ('/' :: (written rest).tail)
      else removeDots (done ++ '/' :: part.toList) (written rest) := by
  have hdot : part.toList = ['.'] ↔ part = "." :=
    ⟨fun heq => String.toList_inj.1 heq, fun heq => heq ▸ rfl⟩
  have hdotDot : part.toList = ['.', '.'] ↔ part = ".." :=
    ⟨fun heq => String.toList_inj.1 heq, fun heq => heq ▸ rfl⟩
  rw [written_cons, List.cons_append, removeDots]
  simp only [(takeWhile_append_written h rest).1, (takeWhile_append_written h rest).2, hdot,
    hdotDot, true_and]
  simp

/-- A piece at the end of a path that asks for a directory. -/
def AsksDirectory (part : String) : Prop :=
  part = "" ∨ part = "." ∨ part = ".."

instance (part : String) : Decidable (AsksDirectory part) :=
  inferInstanceAs (Decidable (_ ∨ _ ∨ _))

/-- The names from the root to which pieces lead, one after the other. -/
def settled (parts : List String) : List String :=
  (parts.foldl pushName []).reverse

theorem removeDots_singleton_slash (done : List Char) : removeDots done ['/'] = done ++ ['/'] := by
  rw [removeDots]
  simp [removeDots]

theorem removeDots_written_singleton {last : String} (h : SlashFree last) {names : List String}
    (hnames : ∀ name ∈ names, SlashFree name) :
    removeDots (written names) (written [last]) = written ((pushName names.reverse last).reverse ++
      if AsksDirectory last then [""] else []) := by
  rw [removeDots_written_cons h]
  by_cases hdot : last = "."
  · subst hdot
    rw [if_pos rfl, if_pos (by decide)]
    simp [pushName, removeDots_singleton_slash]
  by_cases hdotDot : last = ".."
  · subst hdotDot
    rw [if_neg (by decide), if_pos rfl, if_pos (by decide), withoutLast_written hnames]
    simp [pushName, removeDots_singleton_slash]
  rw [if_neg hdot, if_neg hdotDot]
  by_cases hempty : last = ""
  · subst hempty
    rw [if_pos (by decide)]
    simp [pushName, removeDots]
  · rw [if_neg (by simp [AsksDirectory, hempty, hdot, hdotDot])]
    simp [pushName, hempty, hdot, hdotDot, removeDots]

/-- **Taking the dots out of a path leaves the names to which its pieces lead**, and
a slash behind them if the last piece asks for a directory.  Only this piece may be
empty. -/
theorem removeDots_written {front : List String} (hfront : AreParts front) {last : String}
    (hlast : SlashFree last) {names : List String} (hnames : ∀ name ∈ names, SlashFree name) :
    removeDots (written names) (written (front ++ [last])) =
      written (((front ++ [last]).foldl pushName names.reverse).reverse ++
        if AsksDirectory last then [""] else []) := by
  induction front generalizing names with
  | nil => exact removeDots_written_singleton hlast hnames
  | cons part rest ih =>
    have hpart := hfront part (List.mem_cons_self ..)
    have hrest : AreParts rest := fun other hother => hfront other (List.mem_cons_of_mem _ hother)
    obtain ⟨next, more, hnext⟩ : ∃ next more, rest ++ [last] = next :: more :=
      List.exists_cons_of_ne_nil (by simp)
    -- behind the piece the path goes on with a slash, so the slash that is put back is there
    have hslash : '/' :: (written (rest ++ [last])).tail = written (rest ++ [last]) := by
      rw [hnext, written_cons, List.cons_append, List.tail_cons]
    rw [List.cons_append, removeDots_written_cons hpart.2, hslash, List.foldl_cons]
    by_cases hdot : part = "."
    · rw [if_pos hdot, ih hrest hnames, pushName, if_pos (Or.inr hdot)]
    by_cases hdotDot : part = ".."
    · have hfewer : ∀ name ∈ names.dropLast, SlashFree name :=
        fun name hname => hnames name (List.dropLast_subset _ hname)
      rw [if_neg hdot, if_pos hdotDot, withoutLast_written hnames, ih hrest hfewer, pushName,
        if_neg (not_or.2 ⟨hpart.1, hdot⟩), if_pos hdotDot, List.tail_reverse]
    · have hmore : ∀ name ∈ names ++ [part], SlashFree name := by
        intro name hname
        rcases List.mem_append.1 hname with hname | hname
        · exact hnames name hname
        · exact List.mem_singleton.1 hname ▸ hpart.2
      have hdone : written names ++ '/' :: part.toList = written (names ++ [part]) := by simp
      rw [if_neg hdot, if_neg hdotDot, hdone, ih hrest hmore, pushName,
        if_neg (not_or.2 ⟨hpart.1, hdot⟩), if_neg hdotDot, List.reverse_append,
        List.reverse_singleton, List.singleton_append]

/-! ## Addresses -/

/-- An address, taken apart. -/
structure Address where
  scheme : Option String
  authority : Option String
  path : String
  query : Option String
  fragment : Option String
  deriving DecidableEq

/-- The scheme of an address: what stands before a colon, if no slash, question mark
or number sign stands before it. -/
def cutScheme (text : List Char) : Option (List Char) × List Char :=
  let front := text.takeWhile fun c => c ≠ ':' ∧ c ≠ '/' ∧ c ≠ '?' ∧ c ≠ '#'
  match text.drop front.length with
  | ':' :: rest => if front = [] then (none, text) else (some front, rest)
  | _ => (none, text)

/-- The authority of an address: what stands behind two slashes. -/
def cutAuthority : List Char → Option (List Char) × List Char
  | '/' :: '/' :: rest =>
    (some (rest.takeWhile fun c => c ≠ '/' ∧ c ≠ '?' ∧ c ≠ '#'),
      rest.dropWhile fun c => c ≠ '/' ∧ c ≠ '?' ∧ c ≠ '#')
  | text => (none, text)

/-- The query of an address: what stands behind a question mark. -/
def cutQuery : List Char → Option (List Char) × List Char
  | '?' :: rest => (some (rest.takeWhile (· ≠ '#')), rest.dropWhile (· ≠ '#'))
  | text => (none, text)

/-- The fragment of an address: what stands behind a number sign. -/
def cutFragment : List Char → Option (List Char)
  | '#' :: rest => some rest
  | _ => none

namespace Address

/-- The address that a text spells. -/
def ofText (text : String) : Address :=
  let (scheme, rest) := cutScheme text.toList
  let (authority, rest) := cutAuthority rest
  let path := rest.takeWhile fun c => c ≠ '?' ∧ c ≠ '#'
  let (query, rest) := cutQuery (rest.drop path.length)
  { scheme := scheme.map String.ofList
    authority := authority.map String.ofList
    path := String.ofList path
    query := query.map String.ofList
    fragment := (cutFragment rest).map String.ofList }

/-- A path without its pieces `.` and `..`. -/
def withoutDots (path : String) : String :=
  String.ofList (removeDots [] path.toList)

/-- A relative path in place of what stands behind the last slash of an address. -/
def merged (base : Address) (path : String) : String :=
  if base.authority.isSome ∧ base.path = "" then "/" ++ path
  else String.ofList (base.path.toList.reverse.dropWhile (· ≠ '/')).reverse ++ path

/-- Where an address leads that is read against another one. -/
def resolve (base reference : Address) : Address :=
  if reference.scheme.isSome then { reference with path := withoutDots reference.path }
  else if reference.authority.isSome then
    { reference with scheme := base.scheme, path := withoutDots reference.path }
  else if reference.path = "" then
    { base with query := reference.query.or base.query, fragment := reference.fragment }
  else
    { reference with
      scheme := base.scheme
      authority := base.authority
      path := withoutDots (if reference.path.toList.head? = some '/' then reference.path
        else base.merged reference.path) }

example : (ofText "http://a/b/c/d;p?q").resolve (ofText "../g?y#s") =
    ⟨some "http", some "a", "/b/g", some "y", some "s"⟩ := by
  cbv

end Address

end Url
end DocSite
