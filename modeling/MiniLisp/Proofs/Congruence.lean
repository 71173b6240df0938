import Mathlib.Data.List.Forall2
import MiniLisp.Evaluation
import MiniLisp.Proofs.Outcome

namespace MiniLisp

/-!
# Relations that operations respect

Primitive operations look at the numbers that data are and take lists apart; of
anything else they see nothing.  So a relation between data that keeps numbers and
goes through lists is kept by all of them: related arguments give one and the same
error, or related results.
-/

/-- The members of a list. -/
def Datum.items? : Datum → Option (List Datum)
  | .list items => some items
  | _ => none

/-- If every datum is related to itself, then so are the members of a list. -/
theorem Datum.items?_rel_self
    {related : Datum → Datum → Prop}
    (refl : ∀ datum, related datum datum)
    (datum : Datum) :
    Option.Rel (List.Forall₂ related) datum.items? datum.items? := by
  cases datum.items? with
  | none =>
      exact .none
  | some items =>
      exact .some (List.forall₂_same.mpr fun item _ => refl item)

/-- A relation between data that keeps truth and numbers and goes through lists. -/
structure Datum.Congruence (related : Datum → Datum → Prop) : Prop where
  isTrue_eq {first second : Datum} (holds : related first second) :
    first.isTrue = second.isTrue
  number?_eq {first second : Datum} (holds : related first second) :
    first.number? = second.number?
  items? {first second : Datum} (holds : related first second) :
    Option.Rel (List.Forall₂ related) first.items? second.items?
  list {items others : List Datum} (members : List.Forall₂ related items others) :
    related (.list items) (.list others)

namespace Datum.Congruence

variable {related : Datum → Datum → Prop}

/-- Related values are the same numbers, or one of them is no number in both cases. -/
theorem demandNumbers_eq
    (congruence : Datum.Congruence related)
    (op : Word)
    {values others : List Datum}
    (holds : List.Forall₂ related values others) :
    demandNumbers op values = demandNumbers op others := by
  have sameNumbers : values.mapM Datum.number? = others.mapM Datum.number? := by
    induction holds with
    | nil =>
        rfl
    | cons head _ inductionHypothesis =>
        rw [List.mapM_cons, List.mapM_cons, congruence.number?_eq head, inductionHypothesis]
  rw [demandNumbers, sameNumbers, demandNumbers]

/-- Related data are taken apart into related parts. -/
theorem demandPair
    (congruence : Datum.Congruence related)
    (op : ListOperation)
    {first second : Datum}
    (holds : related first second) :
    Corresponds Eq
      (fun pair other => related pair.1 other.1 ∧ List.Forall₂ related pair.2 other.2)
      (MiniLisp.demandPair op first)
      (MiniLisp.demandPair op second) := by
  have byItems (datum : Datum) :
      MiniLisp.demandPair op datum =
        match datum.items? with
        | some (head :: tail) => .ok (head, tail)
        | some [] => .error (.emptyList op)
        | none => .error (.wrongType (.notList op)) := by
    rcases datum with _ | _ | _ | _ | _ | ⟨_ | ⟨head, tail⟩⟩ | _ <;> rfl
  have lists := congruence.items? holds
  rw [byItems, byItems]
  generalize first.items? = items? at lists ⊢
  generalize second.items? = others? at lists ⊢
  cases lists with
  | none =>
      exact .error rfl
  | some members =>
      cases members with
      | nil =>
          exact .error rfl
      | cons head tail =>
          exact .ok ⟨head, tail⟩

/-- Putting a datum in front of a list. -/
theorem construct
    (congruence : Datum.Congruence related)
    {head otherHead tail otherTail : Datum}
    (heads : related head otherHead)
    (tails : related tail otherTail) :
    Corresponds Eq related
      (applyListOperation .construct [head, tail])
      (applyListOperation .construct [otherHead, otherTail]) := by
  have byItems (head tail : Datum) :
      applyListOperation .construct [head, tail] =
        match tail.items? with
        | some items => .ok (.list (head :: items))
        | none => .error (.wrongType .tailNotList) := by
    cases tail <;> rfl
  have lists := congruence.items? tails
  rw [byItems, byItems]
  generalize tail.items? = items? at lists ⊢
  generalize otherTail.items? = others? at lists ⊢
  cases lists with
  | none =>
      exact .error rfl
  | some members =>
      exact .ok (congruence.list (.cons heads members))

/-- List operations take related values to related values. -/
theorem applyListOperation
    (congruence : Datum.Congruence related)
    (op : ListOperation)
    {values others : List Datum}
    (holds : List.Forall₂ related values others) :
    Corresponds Eq related
      (MiniLisp.applyListOperation op values)
      (MiniLisp.applyListOperation op others) := by
  have sameLength := holds.length_eq
  cases op with
  | enumerate =>
      exact .ok (congruence.list holds)
  | construct =>
      rcases holds with _ | ⟨heads, _ | ⟨tails, _ | ⟨_, _⟩⟩⟩
      · exact .error rfl
      · exact .error rfl
      · exact congruence.construct heads tails
      · simp only [MiniLisp.applyListOperation, sameLength]
        exact .error rfl
  | first =>
      rcases holds with _ | ⟨value, _ | ⟨_, _⟩⟩
      · exact .error rfl
      · exact (congruence.demandPair _ value).map fun _ _ pair => pair.1
      · simp only [MiniLisp.applyListOperation, sameLength]
        exact .error rfl
  | rest =>
      rcases holds with _ | ⟨value, _ | ⟨_, _⟩⟩
      · exact .error rfl
      · exact (congruence.demandPair _ value).map fun _ _ pair => congruence.list pair.2
      · simp only [MiniLisp.applyListOperation, sameLength]
        exact .error rfl

end Datum.Congruence

end MiniLisp
