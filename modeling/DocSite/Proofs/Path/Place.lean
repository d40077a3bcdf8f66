import DocSite.FileSystem.Resolve
import DocSite.Proofs.Path.Spelling

/-!
# The place that a path names

Where no link is in the way, a path read from a place leads where its steps lead, taken
one by one: the root, the directory around, a name further down.  `Path.place` takes
these steps, whatever stands at the places that are passed.

Taking the detours out of a path does not change the place (`Path.place_normalize`), and
what is joined behind a path is read on from its place (`Path.place_join`).  For an
absolute path, or one read from a place with legal names, the place is what the absolute
path says in its normal form (`Path.normalize_join_canonicalPath`).
-/

namespace DocSite

/-- The place to which one step leads. -/
def Component.go (here : Location) : Component → Location
  | .root => []
  | .here => here
  | .up => here.dropLast
  | .name text => here ++ [text]

/-- The place to which one piece leads. -/
def goPiece (here : Location) (piece : String) : Location :=
  match Component.ofPiece? piece with
  | none => here
  | some step => step.go here

theorem foldl_go_filterMap (here : Location) (parts : List String) :
    (parts.filterMap Component.ofPiece?).foldl Component.go here = parts.foldl goPiece here := by
  induction parts generalizing here with
  | nil => rfl
  | cons piece rest ih =>
    rw [List.foldl_cons, ← ih, goPiece]
    cases hpiece : Component.ofPiece? piece with
    | none => rw [List.filterMap_cons_none hpiece]
    | some step => rw [List.filterMap_cons_some hpiece, List.foldl_cons]

theorem goPiece_of_skip {piece : String} (h : piece = "" ∨ piece = ".") (here : Location) :
    goPiece here piece = here := by
  rw [goPiece, Component.ofPiece?, if_pos h]

@[simp] theorem goPiece_dotDot (here : Location) : goPiece here ".." = here.dropLast := by
  rw [goPiece, Component.ofPiece?, if_neg (by decide), if_pos rfl]
  rfl

theorem goPiece_of_isName {piece : String} (h : ¬ (piece = "" ∨ piece = ".")) (hup : piece ≠ "..")
    (here : Location) : goPiece here piece = here ++ [piece] := by
  rw [goPiece, Component.ofPiece?, if_neg h, if_neg hup]
  rfl

theorem foldl_go_map_name (here : Location) (names : List String) :
    (names.map Component.name).foldl Component.go here = here ++ names := by
  induction names generalizing here with
  | nil => simp
  | cons name rest ih =>
    rw [List.map_cons, List.foldl_cons, ih, Component.go, List.append_assoc, List.singleton_append]

theorem foldl_goPiece_of_areLegal {names : List String} (h : AreLegal names) (here : Location) :
    names.foldl goPiece here = here ++ names := by
  have hnames : names.filterMap Component.ofPiece? = names.map .name := by
    rw [← List.filterMap_eq_map]
    exact List.filterMap_congr fun name hname => ofPiece?_of_isLegalName (h name hname)
  rw [← foldl_go_filterMap, hnames, foldl_go_map_name]

/-- The place to which the steps on a stack lead. -/
def stackPlace (here : Location) (stack : List Component) : Location :=
  stack.reverse.foldl Component.go here

@[simp] theorem stackPlace_cons (here : Location) (step : Component) (stack : List Component) :
    stackPlace here (step :: stack) = step.go (stackPlace here stack) := by
  simp [stackPlace]

/-- **A piece leads where the stack leads on which it is put.** -/
theorem stackPlace_pushPiece {stack : List Component} (h : IsNormalStack stack) {piece : String}
    (hfree : SlashFree piece) (here : Location) :
    stackPlace here (pushPiece stack piece) = goPiece (stackPlace here stack) piece := by
  obtain ⟨hskip, heq⟩ | ⟨rfl, ⟨rfl, heq⟩ | ⟨name, below, -, rfl, heq⟩ | heq⟩ | ⟨hname, heq⟩ :=
    pushPiece_cases h hfree <;> rw [heq]
  · rw [goPiece_of_skip hskip]
  · rfl
  · simp [Component.go]
  · rw [stackPlace_cons, goPiece_dotDot, Component.go]
  · rw [stackPlace_cons, goPiece_of_isName (not_or.2 ⟨hname.1, hname.2.1⟩) hname.2.2.1,
      Component.go]

theorem stackPlace_foldl {stack : List Component} (h : IsNormalStack stack) {parts : List String}
    (hfree : ∀ part ∈ parts, SlashFree part) (here : Location) :
    stackPlace here (parts.foldl pushPiece stack) =
      parts.foldl goPiece (stackPlace here stack) := by
  induction parts generalizing stack with
  | nil => rfl
  | cons part rest ih =>
    have hpart := hfree part (List.mem_cons_self ..)
    rw [List.foldl_cons, ih (h.pushPiece hpart) fun other hother =>
      hfree other (List.mem_cons_of_mem _ hother), stackPlace_pushPiece h hpart, List.foldl_cons]

namespace Path

/-- The place that a path names, read from a place: its steps taken one by one. -/
def place (p : Path) (here : Location) : Location :=
  p.components.foldl Component.go here

theorem foldl_go_lead (p : Path) (here : Location) :
    p.lead.toList.foldl Component.go here = FileSystem.startOf p here := by
  rw [lead, FileSystem.startOf]
  split
  · rfl
  · split <;> rfl

/-- The place of a path, piece by piece. -/
theorem place_eq_foldl (p : Path) (here : Location) :
    p.place here = (pieces p.text).foldl goPiece (FileSystem.startOf p here) := by
  rw [place, components, List.foldl_append, foldl_go_lead, foldl_go_filterMap]

theorem stackPlace_start (p : Path) (here : Location) :
    stackPlace here p.start = FileSystem.startOf p here := by
  rw [start, FileSystem.startOf]
  split <;> rfl

/-- A path names the place to which the steps lead that are left when it is read. -/
theorem place_eq_stackPlace (p : Path) (here : Location) :
    p.place here = stackPlace here p.stack := by
  rw [stack_eq, stackPlace_foldl p.isNormalStack_start fun _ => slashFree_of_mem_pieces,
    stackPlace_start, place_eq_foldl]

/-- **Without its detours a path names the same place.** -/
theorem place_normalize (p : Path) (here : Location) : p.normalize.place here = p.place here := by
  by_cases h : p.stack = []
  · rw [normalize_eq_of_stack_eq_nil h, place_eq_stackPlace p, h]
    rfl
  · rw [place, components_normalize h, place_eq_stackPlace p, stackPlace]

/-- What is joined behind a path is read on from its place. -/
theorem place_join (p : Path) {q : Path} (hq : q.isAbsolute = false) (here : Location) :
    (p.join q).place here = (pieces q.text).foldl goPiece (p.place here) := by
  rw [place_eq_stackPlace, stack_join p hq,
    stackPlace_foldl p.isNormalStack_stack fun _ => slashFree_of_mem_pieces, place_eq_stackPlace]

/-- Names joined behind a path lead further down. -/
theorem place_join_joined (p : Path) {names : List String} (h : AreLegal names) (hne : names ≠ [])
    (here : Location) : (p.join ⟨joined names⟩).place here = p.place here ++ names := by
  rw [place_join p (isAbsolute_joined h.areParts), pieces_joined hne h.slashFree,
    foldl_goPiece_of_areLegal h]

theorem place_join_name (p : Path) {name : String} (h : IsLegalName name) (here : Location) :
    (p.join ⟨name⟩).place here = p.place here ++ [name] := by
  have hnames : AreLegal [name] := areLegal_nil.append_singleton h
  rw [← joined_singleton name, place_join_joined p hnames (List.cons_ne_nil _ _)]
  rw [joined_singleton]

/-! ## Absolute paths -/

theorem place_of_isAbsolute {p : Path} (h : p.isAbsolute = true) (here there : Location) :
    p.place here = p.place there := by
  rw [place_eq_foldl, place_eq_foldl, FileSystem.startOf, FileSystem.startOf, if_pos h, if_pos h]

/-- What is read of an absolute path are the names that lead to its place. -/
theorem stack_of_isAbsolute {p : Path} (h : p.isAbsolute = true) (here : Location) :
    p.stack = ((p.place here).map .name).reverse ++ [.root] := by
  obtain ⟨names, front, -, hfront, hstack⟩ := p.isNormalStack_stack
  have hroot : .root ∈ p.stack := p.root_mem_stack_iff.2 h
  obtain rfl : front = [.root] := by
    refine hfront.resolve_right ?_
    rintro ⟨n, rfl⟩
    rw [hstack] at hroot
    simp [List.mem_replicate] at hroot
  have hplace : p.place here = names := by
    rw [place_eq_stackPlace, hstack, stackPlace, List.reverse_append, List.reverse_reverse,
      List.foldl_append, foldl_go_map_name]
    exact List.nil_append _
  rw [hplace, hstack]

/-- **An absolute path without its detours is written as its place.** -/
theorem normalize_of_isAbsolute {p : Path} (h : p.isAbsolute = true) (here : Location) :
    p.normalize = FileSystem.canonicalPath (p.place here) := by
  have hstack := stack_of_isAbsolute h here
  rcases hnames : p.place here with _ | ⟨name, rest⟩
  · rw [hnames] at hstack
    rw [normalize_eq_root_iff.2 hstack]
    rfl
  · rw [hnames] at hstack
    have hroot : p.stack ≠ [.root] := fun heq => by
      simp [place_eq_stackPlace, heq, stackPlace, Component.go] at hnames
    have htext := text_normalize (by simp [hstack]) hroot
    have hpieces : spelled p.stack = "" :: name :: rest := by
      simp [hstack, spelled, Component.piece, Function.comp_def]
    rw [hpieces, joined_cons_cons] at htext
    exact congrArg Path.mk (htext.trans (by simp))

theorem place_canonicalPath {here : Location} (h : AreLegal here) (there : Location) :
    (FileSystem.canonicalPath here).place there = here := by
  have habsolute : FileSystem.startOf (FileSystem.canonicalPath here) there = [] := by
    rw [FileSystem.startOf, if_pos (by simp [FileSystem.canonicalPath, isAbsolute])]
  have hpieces : pieces (FileSystem.canonicalPath here).text = [""] ++ pieces (joined here) := by
    have htext : (FileSystem.canonicalPath here).text = "" ++ "/" ++ joined here := by
      rw [String.empty_append]
      rfl
    rw [htext, pieces_append_slash, pieces_empty]
  rw [place_eq_foldl, habsolute, hpieces, List.foldl_append]
  rcases eq_or_ne here [] with rfl | hne
  · rfl
  · rw [pieces_joined hne h.slashFree, foldl_goPiece_of_areLegal h]
    rfl

theorem isAbsolute_join_canonicalPath (here : Location) (p : Path) :
    ((FileSystem.canonicalPath here).join p).isAbsolute = true := by
  have hhere : (FileSystem.canonicalPath here).isAbsolute = true := by
    simp [FileSystem.canonicalPath, isAbsolute]
  by_cases hp : p.isAbsolute = true
  · rwa [join, if_pos hp]
  · rw [Bool.not_eq_true] at hp
    rw [← root_mem_stack_iff, stack_join _ hp,
      root_mem_foldl_iff (isNormalStack_stack _) fun _ => slashFree_of_mem_pieces,
      root_mem_stack_iff, hhere]

/-- A path read from a place names the same place as the absolute path. -/
theorem place_join_canonicalPath (p : Path) {here : Location} (h : AreLegal here)
    (there : Location) : ((FileSystem.canonicalPath here).join p).place there = p.place here := by
  by_cases hp : p.isAbsolute = true
  · rw [join, if_pos hp, place_of_isAbsolute hp]
  · have hstart : FileSystem.startOf p here = here := by rw [FileSystem.startOf, if_neg hp]
    rw [Bool.not_eq_true] at hp
    rw [place_join _ hp, place_canonicalPath h, place_eq_foldl p, hstart]

/-- **The place of a path is what its absolute normal form says.** -/
theorem normalize_join_canonicalPath (p : Path) {here : Location} (h : AreLegal here) :
    ((FileSystem.canonicalPath here).join p).normalize =
      FileSystem.canonicalPath (p.place here) := by
  rw [normalize_of_isAbsolute (isAbsolute_join_canonicalPath here p) here,
    place_join_canonicalPath p h]

/-- An absolute path lies in another one when it names a place further down. -/
theorem liesIn_normalize_iff_of_isAbsolute {p q : Path} (hp : p.isAbsolute = true)
    (hq : q.isAbsolute = true) (here : Location) : p.normalize.LiesIn q.normalize ↔
      ∃ names, names ≠ [] ∧ p.place here = q.place here ++ names := by
  rw [liesIn_normalize_iff, stack_of_isAbsolute hp here, stack_of_isAbsolute hq here]
  refine exists_congr fun names => and_congr_right fun _ => ?_
  have hname : Function.Injective Component.name := fun _ _ => Component.name.inj
  rw [← List.append_assoc, List.append_left_inj, ← List.reverse_append, List.reverse_inj,
    ← List.map_append, (List.map_injective_iff.2 hname).eq_iff]

theorem normalize_eq_iff_of_isAbsolute {p q : Path} (hp : p.isAbsolute = true)
    (hq : q.isAbsolute = true) (here : Location) :
    p.normalize = q.normalize ↔ p.place here = q.place here := by
  constructor
  · intro h
    rw [← place_normalize, h, place_normalize]
  · intro h
    rw [normalize_of_isAbsolute hp here, normalize_of_isAbsolute hq here, h]

end Path
end DocSite
