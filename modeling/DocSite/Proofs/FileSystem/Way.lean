import DocSite.Proofs.FileSystem.Lookup

/-!
# The way of a path

Reading a path is a recursion that comes to an answer, and the answer alone does not
say how it was reached.  `Way` tells the steps: every piece is read in a directory, and
it stays there, goes up, goes down to what has that name, or reads the text of a link
first.  A link takes one from the number of links that may be followed, so a way also
says how many are left.

What is gained is that a way can be cut where a path is cut (`Way.exists_of_append`).  A
path that leads somewhere has a way, and that is all there is to it
(`locate_eq_ok_iff`).  A way looks only at places where something stands, so it is
still there when what stands there was kept (`Way.of_retains`).
-/

namespace DocSite
namespace FileSystem

/-- A piece that is looked up as a name. -/
def IsSought (step : String) : Prop :=
  ¬ (step = "" ∨ step = ".") ∧ step ≠ ".." ∧ step.utf8ByteSize ≤ nameLimit

instance (step : String) : Decidable (IsSought step) :=
  inferInstanceAs (Decidable (_ ∧ _ ∧ _))

/-- Pieces lead from a place to a place, and of the links that may be followed some are
left. -/
inductive Way (fs : FileSystem) : Nat → Location → List String → Nat → Location → Prop
  | done (budget : Nat) (here : Location) : Way fs budget here [] budget here
  | stay {budget left : Nat} {here place : Location} {step : String} {rest : List String}
      (hdir : fs.get? here = some .directory) (hstep : step = "" ∨ step = ".")
      (hrest : Way fs budget here rest left place) : Way fs budget here (step :: rest) left place
  | up {budget left : Nat} {here place : Location} {rest : List String}
      (hdir : fs.get? here = some .directory)
      (hrest : Way fs budget here.dropLast rest left place) :
      Way fs budget here (".." :: rest) left place
  | down {budget left : Nat} {here place : Location} {step : String} {rest : List String}
      {entry : Entry} (hdir : fs.get? here = some .directory) (hstep : IsSought step)
      (hentry : fs.get? (here ++ [step]) = some entry) (hlink : ∀ target, entry ≠ .link target)
      (hrest : Way fs budget (here ++ [step]) rest left place) :
      Way fs budget here (step :: rest) left place
  | link {budget left : Nat} {here place : Location} {step target : String} {rest : List String}
      (hdir : fs.get? here = some .directory) (hstep : IsSought step)
      (hentry : fs.get? (here ++ [step]) = some (.link target))
      (hrest : Way fs budget (startOf ⟨target⟩ here) (pieces target ++ rest) left place) :
      Way fs (budget + 1) here (step :: rest) left place

variable {fs : FileSystem} {followLast : Bool} {budget left : Nat} {here place : Location}

/-! ## Ways and reading -/

/-- What is read behind a way is read from where the way leads. -/
theorem Way.follow_append {front rest : List String} (h : Way fs budget here front left place)
    (hlast : rest ≠ [] ∨ followLast = true) :
    fs.follow followLast budget here (front ++ rest) = fs.follow followLast left place rest := by
  induction h with
  | done => rfl
  | stay hdir hstep _ ih =>
    rw [List.cons_append, follow, hdir]
    simp only [hstep, if_true, ih]
  | up hdir _ ih =>
    rw [List.cons_append, follow, hdir]
    simp [ih]
  | down hdir hstep hentry hlink _ ih =>
    rw [List.cons_append, follow, hdir]
    simp only [hstep.1, hstep.2.1, Nat.not_lt.2 hstep.2.2, if_false, hentry]
    exact ih
  | link hdir hstep hentry _ ih =>
    rw [List.cons_append, follow, hdir]
    simp only [hstep.1, hstep.2.1, Nat.not_lt.2 hstep.2.2, if_false, hentry]
    rw [if_neg (by rcases hlast with hne | hlast <;> simp [*]), ← List.append_assoc]
    exact ih

/-- **What reading one piece can come to.** -/
theorem follow_cons_eq_ok {step : String} {rest : List String} {target : Target}
    (h : fs.follow followLast budget here (step :: rest) = .ok target) :
    fs.get? here = some .directory ∧
      ((step = "" ∨ step = ".") ∧ fs.follow followLast budget here rest = .ok target ∨
        step = ".." ∧ fs.follow followLast budget here.dropLast rest = .ok target ∨
        IsSought step ∧
          (fs.get? (here ++ [step]) = none ∧ rest = [] ∧ target = .absent here step ∨
            (∃ text, fs.get? (here ++ [step]) = some (.link text) ∧
              (rest = [] ∧ followLast = false ∧ target = .present (here ++ [step]) (.link text) ∨
                ∃ fewer, budget = fewer + 1 ∧ fs.follow followLast fewer (startOf ⟨text⟩ here)
                  (pieces text ++ rest) = .ok target)) ∨
            ∃ entry, fs.get? (here ++ [step]) = some entry ∧ (∀ text, entry ≠ .link text) ∧
              fs.follow followLast budget (here ++ [step]) rest = .ok target)) := by
  rw [follow] at h
  split at h
  · rename_i hdir
    refine ⟨hdir, ?_⟩
    split at h
    · exact .inl ⟨‹_›, h⟩
    · rename_i hskip
      split at h
      · exact .inr (.inl ⟨‹_›, h⟩)
      · rename_i hup
        split at h
        · simp at h
        · rename_i hlimit
          refine .inr (.inr ⟨⟨hskip, hup, Nat.not_lt.1 hlimit⟩, ?_⟩)
          split at h
          · rename_i hnone
            split at h
            · rename_i hrest
              exact .inl ⟨hnone, List.isEmpty_iff.1 hrest, (Except.ok.inj h).symm⟩
            · simp at h
          · rename_i text hlink
            refine .inr (.inl ⟨text, hlink, ?_⟩)
            split at h
            · rename_i hlast
              rw [Bool.and_eq_true, List.isEmpty_iff, Bool.not_eq_true'] at hlast
              exact .inl ⟨hlast.1, hlast.2, (Except.ok.inj h).symm⟩
            · split at h
              · simp at h
              · exact .inr ⟨_, rfl, h⟩
          · rename_i entry hlink hentry
            exact .inr (.inr ⟨entry, hentry, hlink, h⟩)
  · simp at h
  all_goals simp at h

/-- What was read has a way up to any piece, the last one included if links are
followed there and something stands at the end. -/
theorem exists_way_of_follow {budget : Nat} {here : Location} {front rest : List String}
    {target : Target}
    (hlast : rest ≠ [] ∨ followLast = true ∧ ∃ place entry, target = .present place entry)
    (h : fs.follow followLast budget here (front ++ rest) = .ok target) :
    ∃ left place, Way fs budget here front left place ∧
      fs.follow followLast left place rest = .ok target := by
  match front with
  | [] => exact ⟨budget, here, .done _ _, h⟩
  | step :: front =>
    rw [List.cons_append] at h
    obtain ⟨hdir, ⟨hstep, hread⟩ | ⟨rfl, hread⟩ | ⟨hstep, ⟨-, hnil, rfl⟩ |
      ⟨text, hentry, ⟨hnil, rfl, -⟩ | ⟨fewer, rfl, hread⟩⟩ | ⟨entry, hentry, hlink, hread⟩⟩⟩ :=
      follow_cons_eq_ok h
    · obtain ⟨left, place, hway, hrest⟩ := exists_way_of_follow hlast hread
      exact ⟨left, place, .stay hdir hstep hway, hrest⟩
    · obtain ⟨left, place, hway, hrest⟩ := exists_way_of_follow hlast hread
      exact ⟨left, place, .up hdir hway, hrest⟩
    · -- nothing stands there, so it was the last piece
      simp [(List.append_eq_nil_iff.1 hnil).2] at hlast
    · -- a link that is not followed was the last piece as well
      simp [(List.append_eq_nil_iff.1 hnil).2] at hlast
    · rw [← List.append_assoc] at hread
      obtain ⟨left, place, hway, hrest⟩ := exists_way_of_follow hlast hread
      exact ⟨left, place, .link hdir hstep hentry hway, hrest⟩
    · obtain ⟨left, place, hway, hrest⟩ := exists_way_of_follow hlast hread
      exact ⟨left, place, .down hdir hstep hentry hlink hway, hrest⟩
termination_by (budget, front.length)

/-- Pieces lead to what stands where their way leads. -/
theorem follow_eq_ok_present_iff {steps : List String} {entry : Entry} :
    fs.follow true budget here steps = .ok (.present place entry) ↔
      ∃ left, Way fs budget here steps left place ∧ fs.get? place = some entry := by
  constructor
  · intro h
    rw [← List.append_nil steps] at h
    obtain ⟨left, found, hway, hend⟩ := exists_way_of_follow (.inr ⟨rfl, place, entry, rfl⟩) h
    rw [follow] at hend
    split at hend
    · obtain ⟨rfl, rfl⟩ := Target.present.inj (Except.ok.inj hend)
      exact ⟨left, hway, ‹_›⟩
    · simp at hend
  · rintro ⟨left, hway, hentry⟩
    have hend : fs.follow true budget here (steps ++ []) = fs.follow true left place [] :=
      hway.follow_append (.inr rfl)
    rw [List.append_nil] at hend
    rw [hend, follow, hentry]

/-! ## Cutting a way -/

theorem Way.append {front rest : List String} {between : Nat} {middle : Location}
    (h : Way fs budget here front between middle) (hrest : Way fs between middle rest left place) :
    Way fs budget here (front ++ rest) left place := by
  induction h with
  | done => exact hrest
  | stay hdir hstep _ ih => exact .stay hdir hstep (ih hrest)
  | up hdir _ ih => exact .up hdir (ih hrest)
  | down hdir hstep hentry hlink _ ih => exact .down hdir hstep hentry hlink (ih hrest)
  | link hdir hstep hentry _ ih =>
    refine .link hdir hstep hentry ?_
    rw [List.append_eq, ← List.append_assoc]
    exact ih hrest

theorem Way.exists_of_append {front rest : List String}
    (h : Way fs budget here (front ++ rest) left place) :
    ∃ between middle, Way fs budget here front between middle ∧
      Way fs between middle rest left place := by
  generalize hsteps : front ++ rest = steps at h
  induction h generalizing front with
  | done budget here =>
    obtain ⟨rfl, rfl⟩ := List.append_eq_nil_iff.1 hsteps
    exact ⟨budget, here, .done _ _, .done _ _⟩
  | stay hdir hstep hway ih =>
    obtain ⟨rfl, rfl⟩ | ⟨front, rfl, rfl⟩ := List.append_eq_cons_iff.1 hsteps
    · exact ⟨_, _, .done _ _, .stay hdir hstep hway⟩
    · obtain ⟨between, middle, hfront, hrest⟩ := ih rfl
      exact ⟨between, middle, .stay hdir hstep hfront, hrest⟩
  | up hdir hway ih =>
    obtain ⟨rfl, rfl⟩ | ⟨front, rfl, rfl⟩ := List.append_eq_cons_iff.1 hsteps
    · exact ⟨_, _, .done _ _, .up hdir hway⟩
    · obtain ⟨between, middle, hfront, hrest⟩ := ih rfl
      exact ⟨between, middle, .up hdir hfront, hrest⟩
  | down hdir hstep hentry hlink hway ih =>
    obtain ⟨rfl, rfl⟩ | ⟨front, rfl, rfl⟩ := List.append_eq_cons_iff.1 hsteps
    · exact ⟨_, _, .done _ _, .down hdir hstep hentry hlink hway⟩
    · obtain ⟨between, middle, hfront, hrest⟩ := ih rfl
      exact ⟨between, middle, .down hdir hstep hentry hlink hfront, hrest⟩
  | link hdir hstep hentry hway ih =>
    obtain ⟨rfl, rfl⟩ | ⟨front, rfl, rfl⟩ := List.append_eq_cons_iff.1 hsteps
    · exact ⟨_, _, .done _ _, .link hdir hstep hentry hway⟩
    · obtain ⟨between, middle, hfront, hrest⟩ := ih (List.append_assoc ..)
      exact ⟨between, middle, .link hdir hstep hentry hfront, hrest⟩

/-! ## Paths that lead somewhere -/

/-- A path that the operating system reads at all. -/
structure IsReadable (path : Path) : Prop where
  not_cut : Char.ofNat 0 ∉ path.text.toList
  ne_empty : path.text ≠ ""
  size_le : path.text.utf8ByteSize ≤ pathLimit

theorem resolve_of_isReadable {path : Path} (h : IsReadable path) :
    fs.resolve followLast path =
      fs.follow followLast linkBudget (startOf path fs.cwd) (pieces path.text) := by
  rw [resolve, if_neg (by simpa using h.not_cut), if_neg h.ne_empty,
    if_neg (Nat.not_lt.2 h.size_le)]

theorem isReadable_of_resolve {path : Path} {target : Target}
    (h : fs.resolve followLast path = .ok target) : IsReadable path := by
  rw [resolve] at h
  split_ifs at h with hcut hempty hsize
  exact ⟨by simpa using hcut, hempty, Nat.not_lt.1 hsize⟩

theorem locate_eq_ok_iff_resolve {path : Path} {entry : Entry} :
    fs.locate path = .ok (place, entry) ↔
      fs.resolve true path = .ok (.present place entry) := by
  rw [locate, bind_eq_ok_iff]
  constructor
  · rintro ⟨target, hresolve, h⟩
    cases target with
    | absent dir name => exact absurd h throw_ne_ok
    | present found kind =>
      obtain ⟨rfl, rfl⟩ := Prod.mk.inj (Except.ok.inj h)
      exact hresolve
  · intro h
    exact ⟨_, h, rfl⟩

/-- **A path leads where its way leads.** -/
theorem locate_eq_ok_iff {path : Path} {entry : Entry} :
    fs.locate path = .ok (place, entry) ↔ IsReadable path ∧
      (∃ left, Way fs linkBudget (startOf path fs.cwd) (pieces path.text) left place) ∧
      fs.get? place = some entry := by
  rw [locate_eq_ok_iff_resolve]
  constructor
  · intro h
    have hread := isReadable_of_resolve h
    rw [resolve_of_isReadable hread, follow_eq_ok_present_iff] at h
    obtain ⟨left, hway, hentry⟩ := h
    exact ⟨hread, ⟨left, hway⟩, hentry⟩
  · rintro ⟨hread, ⟨left, hway⟩, hentry⟩
    rw [resolve_of_isReadable hread, follow_eq_ok_present_iff]
    exact ⟨left, hway, hentry⟩

/-- A path leads nowhere when nothing has the last name. -/
theorem locate_eq_error_of_resolve {path : Path} {dir : Location} {name : String}
    (h : fs.resolve true path = .ok (.absent dir name)) : fs.locate path = .error .notFound := by
  rw [locate, h]
  rfl

/-- A path leads nowhere when its pieces do. -/
theorem locate_eq_error_of_follow {path : Path} (here : Location) (steps : List String)
    (hread : IsReadable path) (hpath : startOf path fs.cwd = here ∧ pieces path.text = steps)
    {refusal : OsError} (h : fs.follow true linkBudget here steps = .error refusal) :
    fs.locate path = .error refusal := by
  rw [locate, resolve_of_isReadable hread, hpath.1, hpath.2, h]
  rfl

/-- What lies around a place where something stands is a directory. -/
theorem get?_dropLast {entry : Entry} (h : fs.get? place = some entry) :
    fs.get? place.dropLast = some .directory := by
  rcases eq_or_ne place [] with rfl | hne
  · rfl
  · rw [get?, lookupEntry, if_neg hne] at h
    exact (fs.grounded _ (mem_of_lookup_eq_some h)).2

/-- Links are followed to their end. -/
theorem Way.get?_ne_link {steps : List String} (h : Way fs budget here steps left place)
    (hhere : ∀ text, fs.get? here ≠ some (.link text)) (text : String) :
    fs.get? place ≠ some (.link text) := by
  induction h with
  | done => exact hhere text
  | stay _ _ _ ih => exact ih hhere
  | up hdir _ ih => exact ih fun _ => by simp [get?_dropLast hdir]
  | down _ _ hentry hlink _ ih =>
    exact ih fun other hother => hlink other (Option.some.inj (hentry.symm.trans hother))
  | @link _ _ here _ _ target _ hdir _ _ _ ih =>
    refine ih ?_
    rw [startOf]
    split
    · exact fun _ => nofun
    · exact fun _ => by simp [hdir]

theorem Way.get?_of_ne_nil {steps : List String} (hne : steps ≠ [])
    (h : Way fs budget here steps left place) : fs.get? here = some .directory := by
  cases h with
  | done => exact absurd rfl hne
  | stay hdir | up hdir | down hdir | link hdir => exact hdir

/-- A path never leads to a link. -/
theorem locate_ne_link {path : Path} (text : String) :
    fs.locate path ≠ .ok (place, .link text) := by
  intro h
  obtain ⟨-, ⟨left, hway⟩, hentry⟩ := locate_eq_ok_iff.1 h
  have hdir := hway.get?_of_ne_nil (pieces_ne_nil _)
  exact hway.get?_ne_link (fun _ => by simp [hdir]) text hentry

/-! ## More than there was -/

/-- A file system has kept what another one has: directories and links stand where they
stood, and where a file stood there still is one. -/
structure Retains (fs other : FileSystem) : Prop where
  cwd : fs.cwd = other.cwd
  directory : ∀ place, other.get? place = some .directory → fs.get? place = some .directory
  file : ∀ place content mtime, other.get? place = some (.file content mtime) →
    ∃ content' mtime', fs.get? place = some (.file content' mtime')
  link : ∀ place text, other.get? place = some (.link text) → fs.get? place = some (.link text)

/-- A way is still there when what it passes was kept. -/
theorem Way.of_retains {other : FileSystem} (hkept : fs.Retains other) {steps : List String}
    (h : Way other budget here steps left place) : Way fs budget here steps left place := by
  induction h with
  | done => exact .done _ _
  | stay hdir hstep _ ih => exact .stay (hkept.directory _ hdir) hstep ih
  | up hdir _ ih => exact .up (hkept.directory _ hdir) ih
  | @down _ _ _ _ _ _ entry hdir hstep hentry hlink _ ih =>
    cases entry with
    | file content mtime =>
      obtain ⟨_, _, hfile⟩ := hkept.file _ _ _ hentry
      exact .down (hkept.directory _ hdir) hstep hfile nofun ih
    | directory => exact .down (hkept.directory _ hdir) hstep (hkept.directory _ hentry) nofun ih
    | link text => exact absurd rfl (hlink text)
  | link hdir hstep hentry _ ih =>
    exact .link (hkept.directory _ hdir) hstep (hkept.link _ _ hentry) ih

/-- A path leads where it led, to what stands there now. -/
theorem Retains.locate {other : FileSystem} (hkept : fs.Retains other) {path : Path}
    {old entry : Entry} (h : other.locate path = .ok (place, old))
    (hentry : fs.get? place = some entry) :
    fs.locate path = .ok (place, entry) := by
  obtain ⟨hread, ⟨left, hway⟩, -⟩ := locate_eq_ok_iff.1 h
  rw [← hkept.cwd] at hway
  exact locate_eq_ok_iff.2 ⟨hread, ⟨left, hway.of_retains hkept⟩, hentry⟩

/-- A file system has all that another one has, and perhaps more. -/
structure Extends (fs other : FileSystem) : Prop where
  cwd : fs.cwd = other.cwd
  get? : ∀ place entry, other.get? place = some entry → fs.get? place = some entry

theorem Extends.retains {other : FileSystem} (hmore : fs.Extends other) : fs.Retains other where
  cwd := hmore.cwd
  directory place h := hmore.get? place _ h
  file place content mtime h := ⟨content, mtime, hmore.get? place _ h⟩
  link place _ h := hmore.get? place _ h

theorem Extends.locate {other : FileSystem} (hmore : fs.Extends other) {path : Path}
    {found : Location × Entry} (h : other.locate path = .ok found) : fs.locate path = .ok found :=
  hmore.retains.locate h (hmore.get? _ _ (get?_of_locate h))

end FileSystem
end DocSite
