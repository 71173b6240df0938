import Mathlib.Data.Set.Insert
import MiniLisp.Proofs.Congruence

namespace MiniLisp

/-!
# Data that no program tells apart

A procedure captures all bindings in force where it was made, but its body can
look up only names that occur in it.  Two data are alike if they differ at most
in bindings that procedures captured and that no body of these procedures can
reach.  Bindings agree on a set of names if they give alike data to each of them.
-/

namespace Datum

mutual

/-- The spellings of the names and reserved words that occur in an expression, at any depth. -/
def mentioned : Datum → List String
  | .word reserved => [reserved.text]
  | .name text => [text]
  | .list items => mentionedIn items
  | _ => []

/-- The spellings of the names and reserved words that occur in a list of expressions. -/
def mentionedIn : List Datum → List String
  | [] => []
  | item :: rest => item.mentioned ++ mentionedIn rest

end

theorem mem_mentionedIn
    {name : String}
    {items : List Datum} :
    name ∈ mentionedIn items ↔ ∃ item ∈ items, name ∈ item.mentioned := by
  induction items with
  | nil =>
      simp [mentionedIn]
  | cons item rest inductionHypothesis =>
      simp [mentionedIn, inductionHypothesis]

mutual

/-- A datum with nothing left of what its procedures captured. -/
def withoutCaptures : Datum → Datum
  | .list items => .list (withoutCapturesIn items)
  | .procedure closure => .procedure { closure with env := .empty }
  | other => other

/-- A list of data with nothing left of what their procedures captured. -/
def withoutCapturesIn : List Datum → List Datum
  | [] => []
  | item :: rest => item.withoutCaptures :: withoutCapturesIn rest

end

/-- Printing does not show what procedures captured. -/
theorem render_withoutCaptures
    (limit : Nat)
    (datum : Datum) :
    datum.withoutCaptures.render limit = datum.render limit := by
  induction limit generalizing datum with
  | zero =>
      rfl
  | succ limit inductionHypothesis =>
      have sameItems (items : List Datum) :
          (withoutCapturesIn items).mapM (render limit) = items.mapM (render limit) := by
        induction items with
        | nil =>
            rfl
        | cons item rest restHypothesis =>
            rw [withoutCapturesIn, List.mapM_cons, List.mapM_cons,
              inductionHypothesis, restHypothesis]
      cases datum with
      | list items =>
          rw [withoutCaptures, render, render, sameItems]
      | _ =>
          rfl

/-- Two data that differ at most in what their procedures captured, and have the same text. -/
structure Indistinct (first second : Datum) : Prop where
  shape : first.withoutCaptures = second.withoutCaptures
  text (limit : Nat) : first.render limit = second.render limit

/-- Data that differ at most in what their procedures captured have the same text. -/
theorem Indistinct.of_shape
    {first second : Datum}
    (shape : first.withoutCaptures = second.withoutCaptures) :
    first.Indistinct second where
  shape := shape
  text limit := by
    rw [← render_withoutCaptures limit first, shape, render_withoutCaptures]

/--
Data that are equal but for captured bindings, where those agree on every name
that the body of the capturing procedure mentions.
-/
inductive Alike : Datum → Datum → Prop where
  | same (datum : Datum) : Alike datum datum
  | list
      {items others : List Datum}
      (members : List.Forall₂ Alike items others) :
      Alike (.list items) (.list others)
  | procedure
      {name : Option String}
      {params : List String}
      {body : Datum}
      {left right : Env}
      (captured :
        ∀ text ∈ body.mentioned,
          Option.Rel Alike (left.get? text) (right.get? text)) :
      Alike
        (.procedure ⟨name, params, body, left⟩)
        (.procedure ⟨name, params, body, right⟩)

end Datum

/-- Bindings that give alike data to every name of a set, or leave it unbound in both. -/
def AgreeOn (scope : Set String) (left right : Env) : Prop :=
  ∀ name ∈ scope, Option.Rel Datum.Alike (left.get? name) (right.get? name)

/-- Bindings that give the same data to every name of a set agree on it. -/
theorem AgreeOn.of_get?_eq
    {scope : Set String}
    {left right : Env}
    (same : ∀ name ∈ scope, left.get? name = right.get? name) :
    AgreeOn scope left right := by
  intro name member
  rw [same name member]
  cases right.get? name with
  | none =>
      exact .none
  | some value =>
      exact .some (.same value)

namespace Datum.Alike

mutual

/-- Alike data differ at most in what their procedures captured. -/
theorem withoutCaptures_eq {first second : Datum} :
    Alike first second → first.withoutCaptures = second.withoutCaptures
  | .same _ => rfl
  | .list members => by
      simp only [Datum.withoutCaptures, withoutCapturesIn_eq members]
  | .procedure _ => rfl

theorem withoutCapturesIn_eq {items others : List Datum} :
    List.Forall₂ Alike items others → withoutCapturesIn items = withoutCapturesIn others
  | .nil => rfl
  | .cons first rest => by
      simp only [Datum.withoutCapturesIn, withoutCaptures_eq first, withoutCapturesIn_eq rest]

end

theorem indistinct
    {first second : Datum}
    (alike : Alike first second) :
    first.Indistinct second :=
  .of_shape alike.withoutCaptures_eq

theorem isTrue_eq
    {first second : Datum}
    (alike : Alike first second) :
    first.isTrue = second.isTrue := by
  cases alike <;> rfl

/-- Operations take alike data to alike data. -/
theorem congruence : Datum.Congruence Alike where
  isTrue_eq := isTrue_eq
  number?_eq alike := by
    cases alike <;> rfl
  items? alike := by
    cases alike with
    | same =>
        exact items?_rel_self .same _
    | list members =>
        exact .some members
    | procedure _ =>
        exact .none
  list members := .list members

/-- Data alike to a procedure are procedures of one text with captured bindings that agree. -/
theorem procedure_inv
    {procedure : Procedure}
    {second : Datum}
    (alike : Alike (.procedure procedure) second) :
    ∃ env,
      second = .procedure { procedure with env := env } ∧
        AgreeOn { name | name ∈ procedure.body.mentioned } procedure.env env := by
  cases alike with
  | same =>
      exact ⟨procedure.env, rfl, AgreeOn.of_get?_eq fun _ _ => rfl⟩
  | procedure captured =>
      exact ⟨_, rfl, captured⟩

end Datum.Alike

namespace AgreeOn

variable {scope : Set String} {left right : Env}

/-- Binding a name to alike data on both sides keeps agreement. -/
theorem insert
    (agree : AgreeOn scope left right)
    (name : String)
    {first second : Datum}
    (alike : Datum.Alike first second) :
    AgreeOn scope (left.insert name first) (right.insert name second) := by
  intro other member
  rw [Bindings.get?_insert, Bindings.get?_insert]
  by_cases bound : other = name
  · rw [if_pos bound, if_pos bound]
    exact .some alike
  · rw [if_neg bound, if_neg bound]
    exact agree other member

/-- Binding the same names to alike data makes bindings agree that agreed on all other names. -/
theorem insertAll_of_elsewhere
    {pairs others : List (String × Datum)}
    (alike :
      List.Forall₂
        (fun pair other => pair.1 = other.1 ∧ Datum.Alike pair.2 other.2)
        pairs others)
    (elsewhere : AgreeOn { name ∈ scope | name ∉ pairs.map Prod.fst } left right) :
    AgreeOn scope (left.insertAll pairs) (right.insertAll others) := by
  induction alike generalizing left right with
  | nil =>
      exact fun name member => elsewhere name ⟨member, nofun⟩
  | @cons pair other rest _ headAlike _ inductionHypothesis =>
      obtain ⟨sameName, sameValue⟩ := headAlike
      refine inductionHypothesis fun name ⟨member, notLater⟩ => ?_
      rw [Bindings.get?_insert, Bindings.get?_insert, ← sameName]
      by_cases bound : name = pair.1
      · rw [if_pos bound, if_pos bound]
        exact .some sameValue
      · rw [if_neg bound, if_neg bound]
        refine elsewhere name ⟨member, fun listed => ?_⟩
        rcases List.mem_cons.mp listed with now | later
        · exact bound now
        · exact notLater later

theorem insertAll
    (agree : AgreeOn scope left right)
    {pairs others : List (String × Datum)}
    (alike :
      List.Forall₂
        (fun pair other => pair.1 = other.1 ∧ Datum.Alike pair.2 other.2)
        pairs others) :
    AgreeOn scope (left.insertAll pairs) (right.insertAll others) :=
  insertAll_of_elsewhere alike fun name member => agree name member.1

end AgreeOn

/-- The same names beside alike values. -/
theorem zip_alike
    (names : List String)
    {values others : List Datum}
    (alike : List.Forall₂ Datum.Alike values others) :
    List.Forall₂
      (fun pair other => pair.1 = other.1 ∧ Datum.Alike pair.2 other.2)
      (names.zip values) (names.zip others) := by
  induction names generalizing values others with
  | nil =>
      exact .nil
  | cons name rest inductionHypothesis =>
      cases alike with
      | nil =>
          exact .nil
      | cons headAlike tailAlike =>
          exact .cons ⟨rfl, headAlike⟩ (inductionHypothesis tailAlike)

end MiniLisp
