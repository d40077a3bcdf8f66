import Mathlib.Data.List.Basic
import DocSite.FileSystem.Basic
import DocSite.Proofs.Text.Slashes
import DocSite.Url.Relative

/-!
# Names with slashes between them

A file below a directory is named by the names that lead to it, with slashes
between them.  When the names are ones that files can have, nothing is lost by
writing them so (`joined_inj`), reading such a text as a path gives the same text
back (`portable_joined`), and going one name further is what `Url.under` writes
(`under_joined`).
-/

namespace DocSite

/-- Names that files can have. -/
def AreLegal (names : List String) : Prop :=
  ∀ name ∈ names, IsLegalName name

/-- Texts that can stand between two slashes: names, but also `.` and `..`. -/
def AreParts (parts : List String) : Prop :=
  ∀ part ∈ parts, part ≠ "" ∧ SlashFree part

theorem AreParts.slashFree {parts : List String} (h : AreParts parts) :
    ∀ part ∈ parts, SlashFree part :=
  fun part hpart => (h part hpart).2

theorem AreParts.append {parts others : List String} (h : AreParts parts)
    (h' : AreParts others) : AreParts (parts ++ others) := by
  intro part hpart
  rcases List.mem_append.1 hpart with hpart | hpart
  · exact h part hpart
  · exact h' part hpart

theorem areParts_singleton {part : String} (h : part ≠ "") (hfree : SlashFree part) :
    AreParts [part] := by
  intro other hother
  rw [List.mem_singleton.1 hother]
  exact ⟨h, hfree⟩

theorem AreParts.of_append_left {parts others : List String} (h : AreParts (parts ++ others)) :
    AreParts parts :=
  fun part hpart => h part (List.mem_append_left _ hpart)

theorem AreLegal.areParts {names : List String} (h : AreLegal names) : AreParts names :=
  fun name hname => ⟨(h name hname).1, (h name hname).2.2.2⟩

theorem AreLegal.slashFree {names : List String} (h : AreLegal names) :
    ∀ name ∈ names, SlashFree name :=
  h.areParts.slashFree

theorem areLegal_nil : AreLegal [] :=
  fun _ => nofun

theorem AreLegal.append_singleton {names : List String} (h : AreLegal names) {name : String}
    (hname : IsLegalName name) : AreLegal (names ++ [name]) := by
  intro other hother
  rcases List.mem_append.1 hother with hother | hother
  · exact h other hother
  · rwa [List.mem_singleton.1 hother]

/-- Different legal names are written differently. -/
theorem joined_inj {names others : List String} (h : AreLegal names) (h' : AreLegal others)
    (hne : names ≠ []) (hne' : others ≠ []) (heq : joined names = joined others) :
    names = others := by
  rw [← pieces_joined hne h.slashFree, heq, pieces_joined hne' h'.slashFree]

theorem joined_append_singleton {names : List String} (hne : names ≠ []) (name : String) :
    joined (names ++ [name]) = joined names ++ "/" ++ name := by
  rw [joined_append hne (List.cons_ne_nil name []), joined_singleton]

theorem joined_ne_empty {parts : List String} (h : AreParts parts) (hne : parts ≠ []) :
    joined parts ≠ "" := by
  intro hempty
  have hpieces := pieces_joined hne h.slashFree
  rw [hempty, pieces_empty] at hpieces
  exact (h "" (hpieces ▸ List.mem_singleton_self "")).1 rfl

/-- A text of parts ends as the last part does, so not with a slash. -/
theorem getLast?_joined_ne_slash {parts : List String} (h : AreParts parts) :
    (joined parts).toList.getLast? ≠ some '/' := by
  intro hslash
  rcases List.eq_nil_or_concat' parts with rfl | ⟨front, last, rfl⟩
  · simp at hslash
  · have hlast := h last (by simp)
    rw [getLast?_joined_append hlast.1] at hslash
    exact hlast.2 (List.mem_of_getLast? hslash)

/-- A text of parts and one more piece does not start with a slash, even if the piece is
empty. -/
theorem head?_joined_append_ne_slash {front : List String} (hfront : AreParts front)
    {last : String} (hlast : SlashFree last) :
    (joined (front ++ [last])).toList.head? ≠ some '/' := by
  intro hslash
  cases front with
  | nil =>
    rw [List.nil_append, joined_singleton] at hslash
    exact hlast (List.mem_of_head? hslash)
  | cons first rest =>
    have hfirst := hfront first (List.mem_cons_self ..)
    rw [List.cons_append, head?_joined_cons hfirst.1] at hslash
    exact hfirst.2 (List.mem_of_head? hslash)

/-- One part further is written behind a slash. -/
theorem under_joined_of_areParts {parts : List String} (h : AreParts parts) (part : String) :
    Url.under (joined parts) part = joined (parts ++ [part]) := by
  rcases eq_or_ne parts [] with rfl | hne
  · rw [Url.under, joined_nil, if_pos rfl, List.nil_append, joined_singleton]
  · rw [Url.under, if_neg (joined_ne_empty h hne), if_neg (getLast?_joined_ne_slash h),
      joined_append_singleton hne]

/-- A name further down is written behind a slash. -/
theorem under_joined {names : List String} (h : AreLegal names) (name : String) :
    Url.under (joined names) name = joined (names ++ [name]) :=
  under_joined_of_areParts h.areParts name

/-! ## Read as paths -/

theorem ofPiece?_of_isLegalName {name : String} (h : IsLegalName name) :
    Component.ofPiece? name = some (.name name) := by
  rw [Component.ofPiece?, if_neg (not_or.2 ⟨h.1, h.2.1⟩), if_neg h.2.2.1]

theorem eq_up_or_name_of_ofPiece? {piece : String} {step : Component}
    (h : Component.ofPiece? piece = some step) : step = .up ∨ ∃ name, step = .name name := by
  rw [Component.ofPiece?] at h
  split at h
  · exact absurd h (by simp)
  · split at h
    · exact .inl (Option.some.inj h).symm
    · exact .inr ⟨piece, (Option.some.inj h).symm⟩

/-- A text put together is read as a relative path piece by piece, when it starts
with a piece that counts. -/
theorem components_joined_eq_filterMap {first : String} {rest : List String}
    (hfree : ∀ part ∈ first :: rest, SlashFree part) (hne : first ≠ "") (hhere : first ≠ ".") :
    (Path.mk (joined (first :: rest))).components =
      (first :: rest).filterMap Component.ofPiece? := by
  have hpieces : pieces (joined (first :: rest)) = first :: rest :=
    pieces_joined (List.cons_ne_nil _ _) hfree
  have hrelative : (Path.mk (joined (first :: rest))).isAbsolute = false := by
    have hslash : first.toList.head? ≠ some '/' := fun hslash =>
      hfree first (List.mem_cons_self ..) (List.mem_of_head? hslash)
    rw [Path.isAbsolute, head?_joined_cons hne]
    simpa using hslash
  have hlead : (Path.mk (joined (first :: rest))).lead = none := by
    rw [Path.lead, if_neg (by simp [hrelative]), hpieces, List.head?_cons,
      if_neg fun heq => hhere (Option.some.inj heq)]
  rw [Path.components, hlead, hpieces, Option.toList_none, List.nil_append]

/-- Legal names are the steps of the path that they write. -/
theorem components_joined {names : List String} (h : AreLegal names) (hne : names ≠ []) :
    (Path.mk (joined names)).components = names.map .name := by
  obtain ⟨first, rest, rfl⟩ := List.exists_cons_of_ne_nil hne
  have hfirst : IsLegalName first := h first (List.mem_cons_self ..)
  rw [components_joined_eq_filterMap h.slashFree hfirst.1 hfirst.2.1, ← List.filterMap_eq_map]
  exact List.filterMap_congr fun name hname => ofPiece?_of_isLegalName (h name hname)

/-- Names are written with a slash between two of them. -/
theorem text_ofComponents_map_name (names : List String) :
    (Path.ofComponents (names.map .name)).text = joined names := by
  have hroot : names.map Component.name ≠ [.root] := by
    intro heq
    have hmem : Component.root ∈ names.map Component.name := by
      rw [heq]
      exact List.mem_singleton_self _
    obtain ⟨name, -, hname⟩ := List.mem_map.1 hmem
    exact absurd hname (by simp)
  rw [Path.ofComponents, if_neg hroot, List.map_map]
  simp [Function.comp_def, Component.piece]

/-- The portable form of a path of legal names is the path. -/
theorem portable_joined {names : List String} (h : AreLegal names) (hne : names ≠ []) :
    (Path.mk (joined names)).portable = joined names := by
  have hkept : (names.map Component.name).filter (· ≠ .here) = names.map .name :=
    List.filter_eq_self.2 fun step hstep => by
      obtain ⟨name, -, rfl⟩ := List.mem_map.1 hstep
      simp
  rw [Path.portable, components_joined h hne, hkept, text_ofComponents_map_name]

end DocSite
