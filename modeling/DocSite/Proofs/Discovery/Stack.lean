import Mathlib.Data.Finset.Card
import DocSite.Proofs.Discovery.Directory

/-!
# The walk on one stack

`scan` hands the places that are being walked down to the walks below.  A program has one
stack for all of them: a directory is put on it before what is below is walked, and taken
off afterwards.  `scanOnStack` is the walk in this form.  Nothing in a program says that it
comes to an end, so here it is said how deep it may go, and one that goes deeper gives up.
It also keeps a trail: the stacks that it has had, and for each directory that it came back
from, the stack before and after.

From every stack of different directories it does what `scan` does, and never gives up, as
long as it may go deeper than there are directories that are not on the stack
(`does_scanOnStack`).  So the depth does not matter: the program comes to an end, with the
same answer and the same reports.  At every moment the stack holds different places, all of
them directories; and whenever the walk of a directory comes back with an answer, the stack
is what it was before.  Since the stack is as it was, `scan` can have it from above: a
directory beside another one does not see that the other one was walked.
-/

namespace DocSite

/-- What a walk on one stack carries along. -/
structure Trail where
  /-- The places that are being walked, the last one entered first. -/
  stack : List Location
  /-- What was reported, in order. -/
  events : List Event
  /-- The stacks that there were: at every call, and after every change. -/
  held : List (List Location)
  /-- The stacks before and after every walk that has come back with an answer. -/
  returns : List (List Location × List Location)

/-- A walk with nothing behind it. -/
def Trail.start : Trail :=
  ⟨[], [], [], []⟩

/-- Walking on one stack: it may fail, and it may give up. -/
abbrev Walking := ExceptT FileError (StateT Trail Option)

namespace Walking

variable {α β : Type}

/-- Finding something on the way. -/
def find (x : Finding α) : Walking α :=
  ExceptT.mk fun t => some (x.run.value, { t with events := t.events ++ x.run.events })

/-- Giving up. -/
def giveUp : Walking α :=
  ExceptT.mk fun _ => none

/-- The stack at a call. -/
def call : Walking (List Location) :=
  ExceptT.mk fun t => some (.ok t.stack, { t with held := t.stack :: t.held })

/-- A call comes back that was made with a stack. -/
def comeBack (before : List Location) : Walking Unit :=
  ExceptT.mk fun t => some (.ok (), { t with returns := (before, t.stack) :: t.returns })

/-- The stack is replaced by another one. -/
def change (f : List Location → List Location) : Walking Unit :=
  ExceptT.mk fun t => some (.ok (), { t with stack := f t.stack, held := f t.stack :: t.held })

/-- Nothing is found. -/
theorem find_pure (a : α) : find (pure a) = pure a := by
  refine ExceptT.ext (StateT.ext fun t => ?_)
  show some (Except.ok a, { t with events := t.events ++ [] }) = some (Except.ok a, t)
  rw [List.append_nil]

theorem run_bind_of_ok {x : Walking α} {t t' : Trail} {a : α}
    (h : x.run.run t = some (.ok a, t')) (next : α → Walking β) :
    (x >>= next).run.run t = (next a).run.run t' := by
  rw [ExceptT.run_bind, StateT.run_bind, h]
  rfl

theorem run_bind_of_error {x : Walking α} {t t' : Trail} {refusal : FileError}
    (h : x.run.run t = some (.error refusal, t')) (next : α → Walking β) :
    (x >>= next).run.run t = some (.error refusal, t') := by
  rw [ExceptT.run_bind, StateT.run_bind, h]
  rfl

end Walking

/-- The files below a directory as paths from the top, found with one stack and not deeper
than it is said. -/
def scanOnStack (fs : FileSystem) (rules : List ExcludeRule) :
    Nat → Path → String → Walking (List String)
  | 0, _, _ => Walking.giveUp
  | depth + 1, dir, fromTop => do
    let before ← Walking.call
    let (place, _) ← Walking.find (liftExcept (atPath dir (fs.locate dir)))
    if before.contains place then
      Walking.find (Finding.report (.directoryLoop dir (FileSystem.canonicalPath place)))
      Walking.comeBack before
      return []
    else
      match fs.namesIn? place with
      | none => throw (.io dir .notADirectory)
      | some names =>
        let (files, dirs) ← Walking.find (liftExcept (classify fs dir names))
        let found ← Walking.find (keptFiles rules dir fromTop files)
        Walking.change (place :: ·)
        let below ← (keptDirectories rules fromTop dirs).mapM fun name =>
          scanOnStack fs rules depth (dir.join ⟨name⟩) (Url.under fromTop name)
        Walking.change List.tail
        Walking.comeBack before
        return found ++ below.flatten

/-! ## Going deeper -/

/-- Whatever one walk ends with, another one ends with as well. -/
def Walking.Le {α : Type} (x y : Walking α) : Prop :=
  ∀ t ending, x.run.run t = some ending → y.run.run t = some ending

namespace Walking

variable {α β : Type}

theorem Le.refl (x : Walking α) : Le x x :=
  fun _ _ h => h

theorem Le.bind {x y : Walking α} {next next' : α → Walking β} (h : Le x y)
    (hnext : ∀ a, Le (next a) (next' a)) : Le (x >>= next) (y >>= next') := by
  intro t ending hending
  cases hrun : x.run.run t with
  | none =>
    rw [ExceptT.run_bind, StateT.run_bind, hrun] at hending
    cases hending
  | some answer =>
    obtain ⟨answer | a, t'⟩ := answer
    · rw [run_bind_of_error hrun] at hending
      rw [run_bind_of_error (h t _ hrun), hending]
    · rw [run_bind_of_ok hrun] at hending
      rw [run_bind_of_ok (h t _ hrun)]
      exact hnext a t' ending hending

theorem Le.mapM {f g : α → Walking β} (h : ∀ a, Le (f a) (g a)) (as : List α) :
    Le (as.mapM f) (as.mapM g) := by
  induction as with
  | nil => exact .refl _
  | cons a rest ih =>
    rw [List.mapM_cons, List.mapM_cons]
    exact (h a).bind fun _ => ih.bind fun _ => .refl _

end Walking

/-- **A walk that may go deeper** ends as it did before. -/
theorem le_scanOnStack_succ (fs : FileSystem) (rules : List ExcludeRule) (depth : Nat) (dir : Path)
    (fromTop : String) : Walking.Le (scanOnStack fs rules depth dir fromTop)
      (scanOnStack fs rules (depth + 1) dir fromTop) := by
  induction depth generalizing dir fromTop with
  | zero =>
    intro t ending hending
    cases hending
  | succ depth ih =>
    rw [scanOnStack, scanOnStack]
    refine .bind (.refl _) fun before => .bind (.refl _) fun found => ?_
    obtain ⟨place, entry⟩ := found
    dsimp only
    split
    · exact .refl _
    · cases fs.namesIn? place with
      | none => exact .refl _
      | some names =>
        refine .bind (.refl _) fun kinds => .bind (.refl _) fun found => .bind (.refl _) fun _ => ?_
        exact .bind (.mapM (fun name => ih _ _) _) fun below => .refl _

theorem run_scanOnStack_of_le {fs : FileSystem} {rules : List ExcludeRule} {depth deeper : Nat}
    (h : depth ≤ deeper) {dir : Path} {fromTop : String} {t : Trail}
    {ending : Except FileError (List String) × Trail}
    (hending : (scanOnStack fs rules depth dir fromTop).run.run t = some ending) :
    (scanOnStack fs rules deeper dir fromTop).run.run t = some ending := by
  induction h with
  | refl => exact hending
  | step _ ih => exact le_scanOnStack_succ fs rules _ dir fromTop t ending ih

/-! ## Sound stacks -/

/-- A stack of directories, no two of them the same. -/
structure IsStack (fs : FileSystem) (stack : List Location) : Prop where
  distinct : stack.Nodup
  directory : ∀ place ∈ stack, fs.get? place = some .directory

/-- Every stack was one of different directories, and every walk that has come back left the
stack as it was. -/
structure Trail.IsSound (fs : FileSystem) (t : Trail) : Prop where
  held : ∀ stack ∈ t.held, IsStack fs stack
  returns : ∀ before after, (before, after) ∈ t.returns → after = before

/-- From a stack, walking does what a finding does: it comes to an end with the same answer
and the same reports, the trail stays sound, and an answer comes with a stack that is
known. -/
def Does {α : Type} (fs : FileSystem) (before after : List Location) (x : Walking α)
    (y : Finding α) : Prop :=
  ∀ t : Trail, t.stack = before → t.IsSound fs → ∃ t' : Trail,
    x.run.run t = some (y.run.value, t') ∧ t'.events = t.events ++ y.run.events ∧
      t'.IsSound fs ∧ ∀ a, y.outcome = .ok a → t'.stack = after

variable {fs : FileSystem} {rules : List ExcludeRule} {α β : Type}
  {before between after stack : List Location}

theorem IsStack.nil : IsStack fs [] :=
  ⟨List.nodup_nil, by simp⟩

theorem IsStack.cons (h : IsStack fs stack) {place : Location} (hnew : place ∉ stack)
    (hdir : fs.get? place = some .directory) : IsStack fs (place :: stack) where
  distinct := List.nodup_cons.2 ⟨hnew, h.distinct⟩
  directory := List.forall_mem_cons.2 ⟨hdir, h.directory⟩

/-- A stack is no longer than there are directories. -/
theorem IsStack.length_le (h : IsStack fs stack) :
    stack.length ≤ fs.directories.toFinset.card := by
  rw [← List.toFinset_card_of_nodup h.distinct]
  refine Finset.card_le_card fun place hplace => ?_
  rw [List.mem_toFinset] at hplace ⊢
  exact FileSystem.mem_directories_of_get? (h.directory place hplace)

theorem Trail.isSound_start : Trail.start.IsSound fs :=
  ⟨by simp [start], by simp [start]⟩

/-! ## Single steps -/

theorem does_find (x : Finding α) : Does fs stack stack (Walking.find x) x :=
  fun _ ht hsound => ⟨_, rfl, rfl, ⟨hsound.held, hsound.returns⟩, fun _ _ => ht⟩

theorem does_pure (a : α) : Does fs stack stack (pure a) (pure a) :=
  fun t ht hsound => ⟨t, rfl, (List.append_nil _).symm, hsound, fun _ _ => ht⟩

theorem does_throw (refusal : FileError) :
    Does fs before after (throw refusal : Walking α) (throw refusal) :=
  fun t _ hsound => ⟨t, rfl, (List.append_nil _).symm, hsound, fun _ hok => nomatch hok⟩

theorem does_call (h : IsStack fs stack) : Does fs stack stack Walking.call (pure stack) := by
  rintro t rfl hsound
  exact ⟨_, rfl, (List.append_nil _).symm,
    ⟨List.forall_mem_cons.2 ⟨h, hsound.held⟩, hsound.returns⟩, fun _ _ => rfl⟩

theorem does_comeBack : Does fs stack stack (Walking.comeBack stack) (pure ()) := by
  rintro t rfl hsound
  refine ⟨_, rfl, (List.append_nil _).symm, ⟨hsound.held, fun before after hmem => ?_⟩,
    fun _ _ => rfl⟩
  rcases List.mem_cons.1 hmem with heq | hmem
  · obtain ⟨rfl, rfl⟩ := Prod.mk.inj heq
    rfl
  · exact hsound.returns before after hmem

theorem does_change {f : List Location → List Location} (h : IsStack fs (f stack)) :
    Does fs stack (f stack) (Walking.change f) (pure ()) := by
  rintro t rfl hsound
  exact ⟨_, rfl, (List.append_nil _).symm,
    ⟨List.forall_mem_cons.2 ⟨h, hsound.held⟩, hsound.returns⟩, fun _ _ => rfl⟩

/-! ## Rows of steps -/

/-- What two steps do on a stack is what two findings do, one after the other. -/
theorem Does.bind {x : Walking α} {y : Finding α} {next : α → Walking β} {next' : α → Finding β}
    (h : Does fs before between x y)
    (hnext : ∀ a, y.outcome = .ok a → Does fs between after (next a) (next' a)) :
    Does fs before after (x >>= next) (y >>= next') := by
  intro t ht hsound
  obtain ⟨t', hrun, hevents, hsound', hstack⟩ := h t ht hsound
  cases hvalue : y.run.value with
  | error refusal =>
    rw [hvalue] at hrun
    refine ⟨t', ?_, ?_, hsound', fun b hb => ?_⟩
    · rw [Walking.run_bind_of_error hrun]
      simp [hvalue, ExceptT.run_bind]
    · simp [hvalue, hevents, ExceptT.run_bind]
    · rw [Finding.outcome_bind, Finding.outcome, hvalue] at hb
      cases hb
  | ok a =>
    rw [hvalue] at hrun
    obtain ⟨t'', hrun', hevents', hsound'', hstack'⟩ := hnext a hvalue t' (hstack a hvalue) hsound'
    refine ⟨t'', ?_, ?_, hsound'', fun b hb => hstack' b ?_⟩
    · rw [Walking.run_bind_of_ok hrun, hrun']
      simp [hvalue, ExceptT.run_bind]
    · simp [hvalue, hevents, hevents', ExceptT.run_bind]
    · rw [Finding.outcome_bind, Finding.outcome, hvalue] at hb
      exact hb

/-- A step that finds nothing of its own. -/
theorem Does.step {a : α} {x : Walking α} {next : α → Walking β} {y : Finding β}
    (h : Does fs before between x (pure a)) (hnext : Does fs between after (next a) y) :
    Does fs before after (x >>= next) y := by
  rw [← pure_bind a fun _ => y]
  exact h.bind fun b hb => by
    obtain rfl := Except.ok.inj hb
    exact hnext

/-- The same step for many, each of which leaves the stack as it was. -/
theorem Does.mapM {f : α → Walking β} {g : α → Finding β} {as : List α}
    (h : ∀ a ∈ as, Does fs stack stack (f a) (g a)) :
    Does fs stack stack (as.mapM f) (as.mapM g) := by
  induction as with
  | nil => exact does_pure []
  | cons a rest ih =>
    rw [List.mapM_cons, List.mapM_cons]
    exact (h a List.mem_cons_self).bind fun _ _ =>
      (ih fun b hb => h b (List.mem_cons_of_mem a hb)).bind fun _ _ => does_pure _

/-! ## The walk -/

/-- **The walk on one stack** does what the walk does that is handed the stack, and leaves
the stack as it was, if it may go deeper than there are directories that are not on the
stack. -/
theorem does_scanOnStack (h : IsStack fs stack) {depth : Nat}
    (hdepth : (unopened fs stack).length < depth) {dir : Path} {fromTop : String} :
    Does fs stack stack (scanOnStack fs rules depth dir fromTop)
      (scan fs rules stack dir fromTop) := by
  induction depth generalizing stack dir fromTop with
  | zero => exact absurd hdepth (Nat.not_lt_zero _)
  | succ depth ih =>
    rw [scanOnStack, scan]
    refine (does_call h).step ((does_find _).bind fun found _ => ?_)
    obtain ⟨place, entry⟩ := found
    simp only [List.contains_iff_mem]
    by_cases hopen : place ∈ stack
    · simp only [if_pos hopen, dif_pos hopen]
      exact (does_find _).bind fun _ _ => does_comeBack.step (does_pure [])
    · simp only [if_neg hopen, dif_neg hopen]
      -- both walks look for names in the place, each on its own
      split <;> rename_i hnames <;> split <;> rename_i hnames'
      · exact does_throw _
      · simp [hnames] at hnames'
      · simp [hnames] at hnames'
      · obtain rfl := Option.some.inj (hnames.symm.trans hnames')
        have hplace := FileSystem.get?_of_namesIn? hnames
        have hpushed := h.cons hopen hplace
        have hsmaller := length_unopened_cons_lt (FileSystem.mem_directories_of_get? hplace) hopen
        refine (does_find _).bind fun kinds _ => (does_find _).bind fun found _ => ?_
        refine (does_change hpushed).step (Does.bind (Does.mapM fun name _ => ?_) fun below _ => ?_)
        · exact ih hpushed (hsmaller.trans_le (Nat.le_of_lt_succ hdepth))
        · exact (does_change h).step (does_comeBack.step (does_pure _))

/-- **A directory that is on the stack** has no files and one report, and nothing else
comes of it. -/
theorem run_scanOnStack_of_mem {dir : Path} {fromTop : String} {place : Location} {entry : Entry}
    (hdir : fs.locate dir = .ok (place, entry)) {t : Trail} (hopen : place ∈ t.stack)
    (depth : Nat) : (scanOnStack fs rules (depth + 1) dir fromTop).run.run t = some (.ok [], {
      stack := t.stack
      events := t.events ++ [.directoryLoop dir (FileSystem.canonicalPath place)]
      held := t.stack :: t.held
      returns := (t.stack, t.stack) :: t.returns }) := by
  have hplace : (liftExcept (atPath dir (fs.locate dir)) : Finding (Location × Entry)) =
      pure (place, entry) := by
    rw [hdir]
    rfl
  rw [scanOnStack, hplace, Walking.find_pure]
  refine (Walking.run_bind_of_ok rfl _).trans ?_
  rw [pure_bind]
  dsimp only
  rw [if_pos (List.contains_iff_mem.2 hopen)]
  exact (Walking.run_bind_of_ok rfl _).trans (Walking.run_bind_of_ok rfl _)

end DocSite
