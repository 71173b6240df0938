import MiniLisp.Proofs.Numeral
import MiniLisp.Proofs.Outcome

namespace MiniLisp

/-!
# What can be printed

Printing goes down one level for each list inside another, and it refuses an
integer of too many digits.  Nothing else stops it: a datum has a text within a
limit just if it has no more levels than the limit and no such integer.
-/

namespace Datum

mutual

/-- The number of levels of a datum: one, and those of what it lists. -/
def levels : Datum → Nat
  | .list items => levelsIn items + 1
  | _ => 1

/-- The number of levels of the deepest datum of a list. -/
def levelsIn : List Datum → Nat
  | [] => 0
  | item :: rest => max item.levels (levelsIn rest)

end

mutual

/-- The integers that the text of a datum shows. -/
def integers : Datum → List Int
  | .number (.int n) => [n]
  | .list items => integersIn items
  | _ => []

/-- The integers that the texts of data show. -/
def integersIn : List Datum → List Int
  | [] => []
  | item :: rest => item.integers ++ integersIn rest

end

/-- A datum within a number of levels, without an integer of too many digits. -/
structure PrintableWithin (limit : Nat) (datum : Datum) : Prop where
  shallow : datum.levels ≤ limit
  short : ∀ n ∈ datum.integers, (Nat.toDigits 10 n.natAbs).length ≤ maxDigits

theorem levels_pos (datum : Datum) : 0 < datum.levels := by
  cases datum <;> exact Nat.succ_pos _

/-- A list is printable just if its members are, one level down. -/
theorem printableWithin_list_iff
    {limit : Nat}
    {items : List Datum} :
    (Datum.list items).PrintableWithin (limit + 1) ↔
      ∀ item ∈ items, item.PrintableWithin limit := by
  have inside :
      (levelsIn items ≤ limit ∧
          ∀ n ∈ integersIn items, (Nat.toDigits 10 n.natAbs).length ≤ maxDigits) ↔
        ∀ item ∈ items, item.PrintableWithin limit := by
    induction items with
    | nil =>
        simp [levelsIn, integersIn]
    | cons item rest inductionHypothesis =>
        rw [List.forall_mem_cons, ← inductionHypothesis, levelsIn, integersIn, Nat.max_le]
        constructor
        · rintro ⟨⟨itemShallow, restShallow⟩, short⟩
          exact ⟨⟨itemShallow, fun n member => short n (List.mem_append_left _ member)⟩,
            restShallow, fun n member => short n (List.mem_append_right _ member)⟩
        · rintro ⟨⟨itemShallow, itemShort⟩, restShallow, restShort⟩
          refine ⟨⟨itemShallow, restShallow⟩, fun n member => ?_⟩
          exact (List.mem_append.mp member).elim (itemShort n) (restShort n)
  rw [← inside]
  constructor
  · intro printable
    exact ⟨Nat.le_of_succ_le_succ printable.shallow, printable.short⟩
  · rintro ⟨shallow, short⟩
    exact ⟨Nat.succ_le_succ shallow, short⟩

theorem printableWithin_int_iff
    {limit : Nat}
    {n : Int} :
    (Datum.number (.int n)).PrintableWithin (limit + 1) ↔
      (Nat.toDigits 10 n.natAbs).length ≤ maxDigits := by
  constructor
  · intro printable
    exact printable.short n List.mem_cons_self
  · intro few
    refine ⟨Nat.succ_pos limit, fun m member => ?_⟩
    rwa [List.mem_singleton.mp member]

end Datum

/-- Doing something to each of several things succeeds just if each time does. -/
theorem exists_mapM_eq_ok_iff
    {α β ε : Type}
    {step : α → Except ε β}
    {items : List α} :
    (∃ results, items.mapM step = .ok results) ↔
      ∀ item ∈ items, ∃ result, step item = .ok result := by
  induction items with
  | nil =>
      simp [pure, Except.pure]
  | cons item rest inductionHypothesis =>
      rw [List.forall_mem_cons, ← inductionHypothesis, List.mapM_cons]
      cases step item with
      | error fault =>
          simp [bind, Except.bind]
      | ok result =>
          cases rest.mapM step with
          | error fault =>
              simp [bind, Except.bind]
          | ok results =>
              simp [bind, Except.bind, pure, Except.pure]

/-- A datum has a text just if it is printable. -/
theorem exists_render_iff
    {limit : Nat}
    {datum : Datum} :
    (∃ text, datum.render limit = .ok text) ↔ datum.PrintableWithin limit := by
  induction limit generalizing datum with
  | zero =>
      constructor
      · rintro ⟨text, impossible⟩
        cases impossible
      · intro printable
        exact absurd printable.shallow (Nat.not_le_of_lt datum.levels_pos)
  | succ limit inductionHypothesis =>
      cases datum with
      | list items =>
          rw [Datum.printableWithin_list_iff]
          simp only [← inductionHypothesis]
          rw [← exists_mapM_eq_ok_iff, Datum.render]
          cases items.mapM (Datum.render limit) with
          | error fault =>
              simp [bind, Except.bind]
          | ok texts =>
              simp [bind, Except.bind]
      | number value =>
          cases value with
          | int n =>
              rw [Datum.printableWithin_int_iff, ← hasFewDigits_iff, Datum.render, Number.text]
              split <;> simp_all
          | float x =>
              exact ⟨fun _ => ⟨Nat.succ_pos limit, nofun⟩, fun _ => ⟨_, rfl⟩⟩
      | _ =>
          exact ⟨fun _ => ⟨Nat.succ_pos limit, nofun⟩, fun _ => ⟨_, rfl⟩⟩

/-- Printing stops because it goes too deep, or at an integer of too many digits. -/
theorem render_ends
    (limit : Nat)
    (datum : Datum) :
    Ends (fun fault => fault = .tooDeep ∨ fault = .tooManyDigits) (fun _ => True)
      (datum.render limit) := by
  induction limit generalizing datum with
  | zero =>
      exact .error (.inl rfl)
  | succ limit inductionHypothesis =>
      cases datum with
      | list items =>
          have texts : Ends _ _ (items.mapM (Datum.render limit)) :=
            .mapM fun item _ => inductionHypothesis item
          exact texts.bind fun _ _ => .ok trivial
      | number value =>
          cases value with
          | int n =>
              rw [Datum.render, Number.text]
              split
              · exact .ok trivial
              · exact .error (.inr rfl)
          | float x =>
              exact .ok trivial
      | _ =>
          exact .ok trivial

end MiniLisp
