import MiniLisp.Proofs.Limit
import MiniLisp.Proofs.Outcome

namespace MiniLisp

/-!
# Outcomes apart from the limit

A run has an outcome within every limit, and a limit only cuts off.  So a run comes
to at most one outcome other than being too deep: it has this outcome within all
limits from one on, and is said to settle on it.  A run that is too deep within
every limit settles on nothing.

Laws that hold whatever the levels of two evaluations are compare what they settle
on.  `settles_bind_iff` says what a run settles on that goes on after another one;
the rest of an argument about forms then needs no limits.
-/

/-- A computation within any limit, of which lower limits only cut off something. -/
@[ext]
structure Run (α : Type) where
  within : Nat → Except Fault α
  cutShort : ∀ {low high : Nat}, low ≤ high → CutShort .tooDeep (within low) (within high)

namespace Run

variable {α β γ : Type}

/-- A run that gives a result without going down any level. -/
def pure (result : α) : Run α where
  within _ := .ok result
  cutShort _ := .full _

/-- A run that goes on with what another one gives. -/
def bind (run : Run α) (next : α → Run β) : Run β where
  within limit := run.within limit >>= fun result => (next result).within limit
  cutShort higher := (run.cutShort higher).bind fun result => (next result).cutShort higher

@[simp] theorem pure_bind
    (result : α)
    (next : α → Run β) :
    (pure result).bind next = next result := rfl

@[simp] theorem bind_assoc
    (run : Run α)
    (next : α → Run β)
    (last : β → Run γ) :
    (run.bind next).bind last = run.bind fun result => (next result).bind last := by
  ext1
  funext limit
  change (run.within limit >>= _ >>= _) = (run.within limit >>= _)
  cases run.within limit <;> rfl

/-- A run has an outcome, given enough levels; being too deep is none. -/
def Settles (run : Run α) (outcome : Except Fault α) : Prop :=
  outcome ≠ .error .tooDeep ∧ ∃ limit, run.within limit = outcome

/-- What a run settles on it comes to within all limits from one on. -/
theorem Settles.within_eq
    {run : Run α}
    {outcome : Except Fault α}
    (settles : run.Settles outcome) :
    ∃ enough, ∀ limit, enough ≤ limit → run.within limit = outcome := by
  obtain ⟨notCut, enough, found⟩ := settles
  exact ⟨enough, fun limit higher => (run.cutShort higher).full_eq found notCut⟩

/-- A run settles on one outcome at most. -/
theorem Settles.unique
    {run : Run α}
    {outcome other : Except Fault α}
    (settles : run.Settles outcome)
    (settlesToo : run.Settles other) :
    outcome = other := by
  obtain ⟨enough, found⟩ := settles.within_eq
  obtain ⟨enoughToo, foundToo⟩ := settlesToo.within_eq
  rw [← found _ (Nat.le_max_left enough enoughToo),
    ← foundToo _ (Nat.le_max_right enough enoughToo)]

theorem settles_pure_iff
    {result : α}
    {outcome : Except Fault α} :
    (pure result).Settles outcome ↔ outcome = .ok result := by
  constructor
  · rintro ⟨-, _, found⟩
    exact found.symm
  · rintro rfl
    exact ⟨nofun, 0, rfl⟩

/--
A run that goes on after another one settles on a fault of the first, or on what
it settles on after a result of the first.
-/
theorem settles_bind_iff
    {run : Run α}
    {next : α → Run β}
    {outcome : Except Fault β} :
    (run.bind next).Settles outcome ↔
      (∃ fault, run.Settles (.error fault) ∧ outcome = .error fault) ∨
        ∃ result, run.Settles (.ok result) ∧ (next result).Settles outcome := by
  constructor
  · rintro ⟨notCut, limit, found⟩
    change (run.within limit >>= fun result => (next result).within limit) = outcome at found
    cases first : run.within limit with
    | error fault =>
        rw [first] at found
        subst found
        refine .inl ⟨fault, ⟨?_, limit, first⟩, rfl⟩
        rintro ⟨⟩
        exact notCut rfl
    | ok result =>
        rw [first] at found
        exact .inr ⟨result, ⟨nofun, limit, first⟩, notCut, limit, found⟩
  · rintro (⟨fault, ⟨notCut, limit, first⟩, rfl⟩ | ⟨result, settles, later⟩)
    · refine ⟨fun cut => notCut (by cases cut; rfl), limit, ?_⟩
      change (run.within limit >>= fun result => (next result).within limit) = _
      rw [first]
      rfl
    · obtain ⟨enough, first⟩ := settles.within_eq
      obtain ⟨enoughLater, second⟩ := later.within_eq
      refine ⟨later.1, max enough enoughLater, ?_⟩
      change (run.within _ >>= fun result => (next result).within _) = _
      rw [first _ (Nat.le_max_left _ _)]
      exact second _ (Nat.le_max_right _ _)

/-- Two runs that settle on the same outcomes. -/
def Equivalent (first second : Run α) : Prop :=
  ∀ outcome, first.Settles outcome ↔ second.Settles outcome

namespace Equivalent

variable {first second third : Run α}

theorem refl (run : Run α) : run.Equivalent run :=
  fun _ => .rfl

theorem symm (same : first.Equivalent second) : second.Equivalent first :=
  fun outcome => (same outcome).symm

theorem trans
    (same : first.Equivalent second)
    (sameToo : second.Equivalent third) :
    first.Equivalent third :=
  fun outcome => (same outcome).trans (sameToo outcome)

/-- Runs that have the same outcomes, but for a number of levels that each takes more. -/
theorem of_levels
    (more less : Nat)
    (same : ∀ limit, first.within (limit + more) = second.within (limit + less)) :
    first.Equivalent second := by
  intro outcome
  constructor
  · rintro ⟨notCut, limit, found⟩
    refine ⟨notCut, limit + less, ?_⟩
    rw [← same]
    exact (first.cutShort (Nat.le_add_right limit more)).full_eq found notCut
  · rintro ⟨notCut, limit, found⟩
    refine ⟨notCut, limit + more, ?_⟩
    rw [same]
    exact (second.cutShort (Nat.le_add_right limit less)).full_eq found notCut

theorem bind
    {next follow : α → Run β}
    (same : first.Equivalent second)
    (continues : ∀ result, (next result).Equivalent (follow result)) :
    (first.bind next).Equivalent (second.bind follow) := by
  intro outcome
  rw [settles_bind_iff, settles_bind_iff]
  simp only [same _, continues _ _]

end Equivalent

/-- Two runs that settle on the same fault or on related results, or on nothing both. -/
structure Same (related : α → β → Prop) (first : Run α) (second : Run β) : Prop where
  forth :
    ∀ outcome, first.Settles outcome →
      ∃ other, second.Settles other ∧ SameOutcome related outcome other
  back :
    ∀ other, second.Settles other →
      ∃ outcome, first.Settles outcome ∧ SameOutcome related outcome other

namespace Same

variable {related : α → β → Prop} {first : Run α} {second : Run β}

/-- Runs with the same outcome within every limit. -/
theorem of_within
    (same : ∀ limit, SameOutcome related (first.within limit) (second.within limit)) :
    first.Same related second where
  forth := by
    rintro _ ⟨notCut, limit, rfl⟩
    have notCutToo := mt ((same limit).eq_error_iff .tooDeep).mpr notCut
    exact ⟨second.within limit, ⟨notCutToo, limit, rfl⟩, same limit⟩
  back := by
    rintro _ ⟨notCut, limit, rfl⟩
    have notCutToo := mt ((same limit).eq_error_iff .tooDeep).mp notCut
    exact ⟨first.within limit, ⟨notCutToo, limit, rfl⟩, same limit⟩

theorem congr
    {firstForm : Run α}
    {secondForm : Run β}
    (same : first.Same related second)
    (firstIs : firstForm.Equivalent first)
    (secondIs : secondForm.Equivalent second) :
    firstForm.Same related secondForm where
  forth outcome settles := by
    obtain ⟨other, settlesToo, sameOutcome⟩ := same.forth outcome ((firstIs outcome).mp settles)
    exact ⟨other, (secondIs other).mpr settlesToo, sameOutcome⟩
  back other settles := by
    obtain ⟨outcome, settlesToo, sameOutcome⟩ := same.back other ((secondIs other).mp settles)
    exact ⟨outcome, (firstIs outcome).mpr settlesToo, sameOutcome⟩

end Same

end Run

/-- The evaluation of an expression in bindings, within any limit. -/
def evaluation (expression : Datum) (env : Env) : Run (Datum × Env) where
  within limit := evaluate limit expression env
  cutShort higher := evaluate_cutShort higher expression env

/-- Expressions evaluated one after the other, each in the bindings that the one before left. -/
inductive InTurn : List Datum → Env → List Datum → Env → Prop where
  | nil (env : Env) : InTurn [] env [] env
  | cons
      {expression value : Datum}
      {rest values : List Datum}
      {env next left : Env}
      (first : (evaluation expression env).Settles (.ok (value, next)))
      (later : InTurn rest next values left) :
      InTurn (expression :: rest) env (value :: values) left

end MiniLisp
