import Mathlib.Data.List.Forall2

/-!
# Steps that may be refused

Most of what a program does here is a row of steps, and each of them may be
refused.  Where the whole row comes to something, no step was refused, and then
it can be taken apart: two steps by `bind_eq_ok_iff`, and the same step taken for
every member of a list by `mapM_eq_ok_iff`.
-/

namespace DocSite

variable {ε α β : Type}

/-- A refusal is no answer. -/
theorem throw_ne_ok {refusal : ε} {a : α} : (throw refusal : Except ε α) ≠ .ok a := by
  simp [throw, throwThe, MonadExceptOf.throw]

/-- Two steps come to something when both do. -/
theorem bind_eq_ok_iff {x : Except ε α} {next : α → Except ε β} {b : β} :
    (x >>= next) = .ok b ↔ ∃ a, x = .ok a ∧ next a = .ok b := by
  cases x <;> simp [bind, Except.bind]

/-- What follows a step may be replaced by what does the same with its answer. -/
theorem bind_congr_of_ok {x : Except ε α} {f g : α → Except ε β} (h : ∀ a, x = .ok a → f a = g a) :
    x >>= f = x >>= g := by
  cases x with
  | error refusal => rfl
  | ok a => exact h a rfl

/-- A step and a change of its answer come to something when the step does. -/
theorem map_eq_ok_iff {f : α → β} {x : Except ε α} {b : β} :
    x.map f = .ok b ↔ ∃ a, x = .ok a ∧ f a = b := by
  cases x <;> simp [Except.map]

/-- To give a refusal another form leaves an answer as it is. -/
theorem mapError_eq_ok_iff {δ : Type} {f : ε → δ} {x : Except ε α} {a : α} :
    x.mapError f = .ok a ↔ x = .ok a := by
  cases x <;> simp [Except.mapError]

/-- The same step for many comes to something when it does for each. -/
theorem mapM_eq_ok_iff {f : α → Except ε β} {as : List α} {bs : List β} :
    as.mapM f = .ok bs ↔ List.Forall₂ (fun a b => f a = .ok b) as bs := by
  induction as generalizing bs with
  | nil =>
    simp [pure, Except.pure, eq_comm]
  | cons a rest ih =>
    rw [List.mapM_cons, bind_eq_ok_iff, List.forall₂_cons_left_iff]
    simp only [bind_eq_ok_iff, ih, pure, Except.pure, Except.ok.injEq]
    grind

/-- Two steps that do the same for each of many do the same for all of them. -/
theorem mapM_congr {f g : α → Except ε β} {as : List α} (h : ∀ a ∈ as, f a = g a) :
    as.mapM f = as.mapM g := by
  induction as with
  | nil => rfl
  | cons a rest ih =>
    obtain ⟨hfirst, hrest⟩ := List.forall_mem_cons.1 h
    rw [List.mapM_cons, List.mapM_cons, hfirst, ih hrest]

/-- A step for what there may be comes to something when there is nothing, or when it does for
what there is. -/
theorem option_mapM_eq_ok_iff {f : α → Except ε β} {a? : Option α} {b? : Option β} :
    a?.mapM f = .ok b? ↔ Option.Rel (fun a b => f a = .ok b) a? b? := by
  cases a? with
  | none =>
    constructor
    · intro h
      obtain rfl := Except.ok.inj h
      exact .none
    · rintro ⟨⟩
      rfl
  | some a =>
    show (some <$> f a) = .ok b? ↔ _
    cases hstep : f a with
    | error refusal =>
      refine iff_of_false nofun ?_
      rintro ⟨hok⟩
      rw [hstep] at hok
      cases hok
    | ok b =>
      constructor
      · intro h
        obtain rfl := Except.ok.inj h
        exact .some hstep
      · rintro ⟨hok⟩
        rw [hstep] at hok
        obtain rfl := Except.ok.inj hok
        rfl

theorem option_mapM_congr {f g : α → Except ε β} {a? : Option α} (h : ∀ a ∈ a?, f a = g a) :
    a?.mapM f = a?.mapM g := by
  cases a? with
  | none => rfl
  | some a =>
    show (some <$> f a) = some <$> g a
    rw [h a rfl]

theorem exists_mapM_eq_ok_iff {f : α → Except ε β} {as : List α} :
    (∃ bs, as.mapM f = .ok bs) ↔ ∀ a ∈ as, ∃ b, f a = .ok b := by
  simp only [mapM_eq_ok_iff]
  induction as with
  | nil => simp
  | cons a rest ih =>
    rw [List.forall_mem_cons, ← ih]
    constructor
    · rintro ⟨_, hall⟩
      cases hall with
      | cons hfirst hrest => exact ⟨⟨_, hfirst⟩, _, hrest⟩
    · rintro ⟨⟨b, hfirst⟩, others, hrest⟩
      exact ⟨b :: others, .cons hfirst hrest⟩

/-- A row in which a step is refused comes to the refusal of one of its steps. -/
theorem exists_mapM_eq_error {f : α → Except ε β} {as : List α} {a : α} (ha : a ∈ as)
    {refusal : ε} (h : f a = .error refusal) :
    ∃ b ∈ as, ∃ refusal, f b = .error refusal ∧ as.mapM f = .error refusal := by
  induction as with
  | nil => exact absurd ha List.not_mem_nil
  | cons b rest ih =>
    rw [List.mapM_cons]
    cases hb : f b with
    | error other => exact ⟨b, List.mem_cons_self, other, hb, rfl⟩
    | ok answer =>
      have hrest : a ∈ rest := by
        refine (List.mem_cons.1 ha).resolve_left ?_
        rintro rfl
        rw [h] at hb
        cases hb
      obtain ⟨c, hc, other, hother, hrow⟩ := ih hrest
      exact ⟨c, List.mem_cons_of_mem _ hc, other, hother, by rw [hrow]; rfl⟩

theorem mem_iff_of_mapM_eq_ok {f : α → Except ε β} {as : List α} {bs : List β}
    (h : as.mapM f = .ok bs) (b : β) : b ∈ bs ↔ ∃ a ∈ as, f a = .ok b := by
  have hall := mapM_eq_ok_iff.1 h
  clear h
  induction hall with
  | nil => simp
  | cons hfirst _ ih =>
    rw [List.mem_cons, List.exists_mem_cons_iff, hfirst, Except.ok.injEq, eq_comm]
    exact or_congr Iff.rfl ih

end DocSite
