import Mathlib.Data.Set.Function
import MiniLisp.Proofs.LexicalScope

namespace MiniLisp

/-!
# Renaming

Names in an expression can be changed for others, in parameter lists as well as in
bodies.  A renamer says how, and on which names it is known to keep apart what was
apart.  It leaves reserved words alone.

Two data are renamed versions of each other if they are equal but for procedures,
and two procedures are if one has parameters and a body that are those of the other
with their names changed.  What they captured has to be related only where the body
can get to it: names that are parameters are bound anew by every call.

A definition answers with the name that it binds.  So a renamer that changes
anything is not allowed where definitions occur.
-/

namespace Datum

mutual

/-- An expression with its names changed. -/
def rename (change : String → String) : Datum → Datum
  | .name text => .name (change text)
  | .list items => .list (renameIn change items)
  | other => other

/-- A list of expressions with their names changed. -/
def renameIn (change : String → String) : List Datum → List Datum
  | [] => []
  | item :: rest => item.rename change :: renameIn change rest

end

mutual

/-- The reserved words that occur in an expression, at any depth. -/
def words : Datum → List Word
  | .word reserved => [reserved]
  | .list items => wordsIn items
  | _ => []

/-- The reserved words that occur in a list of expressions. -/
def wordsIn : List Datum → List Word
  | [] => []
  | item :: rest => item.words ++ wordsIn rest

end

theorem mem_wordsIn
    {word : Word}
    {items : List Datum} :
    word ∈ wordsIn items ↔ ∃ item ∈ items, word ∈ item.words := by
  induction items with
  | nil =>
      simp [wordsIn]
  | cons item rest inductionHypothesis =>
      simp [wordsIn, inductionHypothesis]

theorem rename_list
    (change : String → String)
    (items : List Datum) :
    (Datum.list items).rename change = .list (items.map (rename change)) := by
  have members : renameIn change items = items.map (rename change) := by
    induction items with
    | nil =>
        rfl
    | cons item rest inductionHypothesis =>
        rw [renameIn, inductionHypothesis, List.map_cons]
  rw [rename, members]

mutual

/-- A change that changes nothing leaves an expression as it is. -/
theorem rename_of_fixed
    {change : String → String}
    (fixed : ∀ text, change text = text) :
    ∀ expression : Datum, expression.rename change = expression
  | .name text => by
      rw [rename, fixed]
  | .list items => by
      rw [rename, renameIn_of_fixed fixed items]
  | .nil => rfl
  | .bool _ => rfl
  | .number _ => rfl
  | .word _ => rfl
  | .procedure _ => rfl

theorem renameIn_of_fixed
    {change : String → String}
    (fixed : ∀ text, change text = text) :
    ∀ items : List Datum, renameIn change items = items
  | [] => rfl
  | item :: rest => by
      rw [renameIn, rename_of_fixed fixed item, renameIn_of_fixed fixed rest]

end

theorem map_rename_of_fixed
    {change : String → String}
    (fixed : ∀ text, change text = text)
    (items : List Datum) :
    items.map (rename change) = items := by
  rw [List.map_congr_left fun item _ => rename_of_fixed fixed item, List.map_id']

end Datum

/-- A change of names that keeps the names of a set apart and leaves reserved words alone. -/
structure Renamer where
  scope : Set String
  change : String → String
  injective : Set.InjOn change scope
  words (word : Word) : change word.text = word.text

/-- One name in place of another. -/
def replaceName (old new text : String) : String :=
  if text = old then new else text

namespace Renamer

/-- The renamer that changes nothing. -/
def identity : Renamer where
  scope := Set.univ
  change := id
  injective := Set.injOn_id Set.univ
  words _ := rfl

/-- Changes one name for another, in expressions without the new one. -/
def replace (old new : String) (notReserved : ∀ word : Word, word.text ≠ old) : Renamer where
  scope := { text | text ≠ new }
  change := replaceName old new
  injective := by
    intro first firstFree second secondFree same
    unfold replaceName at same
    -- The new name is not in the scope, so nothing but the old name is changed into it.
    split at same
    · next isOld =>
        split at same
        · next isOldToo =>
            rw [isOld, isOldToo]
        · exact absurd same.symm secondFree
    · split at same
      · exact absurd same firstFree
      · exact same
  words word := if_neg (notReserved word)

/-- An expression on which a renamer may be used. -/
structure Admits (renamer : Renamer) (expression : Datum) : Prop where
  within : expression.Within renamer.scope
  definitions :
    .specialForm .definition ∈ expression.words → ∀ text, renamer.change text = text

/-- A procedure on which a renamer may be used; its own name has to stay. -/
structure Fits (renamer : Renamer) (closure : Procedure) : Prop where
  named : ∀ text ∈ closure.name, text ∈ renamer.scope ∧ renamer.change text = text
  params : ∀ text ∈ closure.params, text ∈ renamer.scope
  body : renamer.Admits closure.body

variable {renamer : Renamer}

theorem Admits.member
    {items : List Datum}
    (admits : renamer.Admits (.list items))
    {item : Datum}
    (member : item ∈ items) :
    renamer.Admits item where
  within := admits.within.member member
  definitions occurs := admits.definitions (Datum.mem_wordsIn.mpr ⟨item, member, occurs⟩)

theorem Admits.name_mem
    {text : String}
    (admits : renamer.Admits (.name text)) :
    text ∈ renamer.scope :=
  admits.within text (List.mem_singleton_self text)

theorem identity_fixed (text : String) : identity.change text = text := rfl

theorem identity_admits (expression : Datum) : identity.Admits expression where
  within _ _ := trivial
  definitions _ _ := rfl

theorem identity_fits (closure : Procedure) : identity.Fits closure where
  named _ _ := ⟨trivial, rfl⟩
  params _ _ := trivial
  body := identity_admits closure.body

end Renamer

/-- A procedure with its parameters and its body renamed, and with other captured bindings. -/
def Closure.rename (closure : Procedure) (renamer : Renamer) (env : Env) : Procedure where
  name := closure.name
  params := closure.params.map renamer.change
  body := closure.body.rename renamer.change
  env := env

theorem Closure.rename_of_fixed
    {renamer : Renamer}
    (fixed : ∀ text, renamer.change text = text)
    (closure : Procedure)
    (env : Env) :
    closure.rename renamer env = { closure with env := env } := by
  rw [Closure.rename, Datum.rename_of_fixed fixed, List.map_congr_left fun text _ => fixed text,
    List.map_id']

/--
Data that are equal but for procedures, which are renamed versions of each other
and have captured related data wherever a call does not bind the name anew.
-/
inductive Datum.Renamed : Datum → Datum → Prop where
  | same (datum : Datum) : Renamed datum datum
  | list
      {items others : List Datum}
      (members : List.Forall₂ Renamed items others) :
      Renamed (.list items) (.list others)
  | procedure
      {closure : Procedure}
      {env : Env}
      (renamer : Renamer)
      (fits : renamer.Fits closure)
      (captured :
        ∀ text ∈ renamer.scope, text ∉ closure.params →
          Option.Rel Renamed (closure.env.get? text) (env.get? (renamer.change text))) :
      Renamed (.procedure closure) (.procedure (closure.rename renamer env))

/-- Bindings that give related data to a name and to the one it is changed for. -/
def Renamer.Relates (renamer : Renamer) (left right : Env) : Prop :=
  ∀ text ∈ renamer.scope,
    Option.Rel Datum.Renamed (left.get? text) (right.get? (renamer.change text))

theorem optionRel_renamed_self
    (found : Option Datum) :
    Option.Rel Datum.Renamed found found := by
  cases found with
  | none =>
      exact .none
  | some value =>
      exact .some (.same value)

theorem Renamer.identity_relates (env : Env) : identity.Relates env env :=
  fun _ _ => optionRel_renamed_self _

namespace Datum.Renamed

variable {first second : Datum}

/-- Renamed versions have the same text: a procedure shows its own name and nothing else. -/
theorem render_eq
    (renamed : Renamed first second)
    (limit : Nat) :
    first.render limit = second.render limit := by
  induction limit generalizing first second with
  | zero =>
      rfl
  | succ limit inductionHypothesis =>
      cases renamed with
      | same =>
          rfl
      | @list items others members =>
          have sameTexts : items.mapM (Datum.render limit) = others.mapM (Datum.render limit) := by
            induction members with
            | nil =>
                rfl
            | cons head _ restHypothesis =>
                rw [List.mapM_cons, List.mapM_cons, inductionHypothesis head, restHypothesis]
          rw [Datum.render, Datum.render, sameTexts]
      | procedure renamer fits captured =>
          rfl

/-- Operations take renamed versions to renamed versions. -/
theorem congruence : Datum.Congruence Renamed where
  isTrue_eq renamed := by
    cases renamed <;> rfl
  number?_eq renamed := by
    cases renamed <;> rfl
  items? renamed := by
    cases renamed with
    | same =>
        exact items?_rel_self .same _
    | list members =>
        exact .some members
    | procedure _ _ _ =>
        exact .none
  list members := .list members

/-- The renamed versions of a procedure are procedures. -/
theorem procedure_inv
    {closure : Procedure}
    (renamed : Renamed (.procedure closure) second) :
    ∃ (renamer : Renamer) (env : Env),
      second = .procedure (closure.rename renamer env) ∧
        renamer.Fits closure ∧
        ∀ text ∈ renamer.scope, text ∉ closure.params →
          Option.Rel Renamed (closure.env.get? text) (env.get? (renamer.change text)) := by
  cases renamed with
  | same =>
      refine ⟨.identity, closure.env, ?_, Renamer.identity_fits closure, ?_⟩
      · rw [Closure.rename_of_fixed Renamer.identity_fixed]
      · intro text _ _
        exact optionRel_renamed_self _
  | procedure renamer fits captured =>
      exact ⟨renamer, _, rfl, fits, captured⟩

/-- Procedures made in related bindings. -/
theorem of_relates
    {renamer : Renamer}
    {closure : Procedure}
    {env : Env}
    (fits : renamer.Fits closure)
    (relates : renamer.Relates closure.env env) :
    Renamed (.procedure closure) (.procedure (closure.rename renamer env)) :=
  .procedure renamer fits fun text member _ => relates text member

end Datum.Renamed

namespace Renamer

variable {renamer : Renamer} {left right : Env}

/--
Binding names of the scope on one side and what they are changed for on the other
relates the bindings, if they were related for all other names.
-/
theorem relates_insertAll
    {pairs others : List (String × Datum)}
    (bound :
      List.Forall₂
        (fun pair other =>
          pair.1 ∈ renamer.scope ∧ other.1 = renamer.change pair.1 ∧ pair.2.Renamed other.2)
        pairs others)
    (elsewhere :
      ∀ text ∈ renamer.scope, text ∉ pairs.map Prod.fst →
        Option.Rel Datum.Renamed (left.get? text) (right.get? (renamer.change text))) :
    renamer.Relates (left.insertAll pairs) (right.insertAll others) := by
  induction bound generalizing left right with
  | nil =>
      intro text member
      exact elsewhere text member nofun
  | @cons pair other rest _ head _ inductionHypothesis =>
      obtain ⟨inScope, changed, renamed⟩ := head
      refine inductionHypothesis fun text member notLater => ?_
      rw [Bindings.get?_insert, Bindings.get?_insert, changed]
      by_cases isHead : text = pair.1
      · rw [if_pos isHead, if_pos (congrArg renamer.change isHead)]
        exact .some renamed
      · -- The renamer keeps the two names apart.
        have apart : renamer.change text ≠ renamer.change pair.1 :=
          fun same => isHead (renamer.injective member inScope same)
        rw [if_neg isHead, if_neg apart]
        refine elsewhere text member fun bound => ?_
        rcases List.mem_cons.mp bound with now | later
        · exact isHead now
        · exact notLater later

/-- Where nothing is changed, a name may be bound to related data on both sides. -/
theorem Relates.insert
    (relates : renamer.Relates left right)
    (fixed : ∀ text, renamer.change text = text)
    (name : String)
    {first second : Datum}
    (renamed : first.Renamed second) :
    renamer.Relates (left.insert name first) (right.insert name second) := by
  intro text member
  have found := relates text member
  rw [fixed] at found ⊢
  rw [Bindings.get?_insert, Bindings.get?_insert]
  by_cases isName : text = name
  · rw [if_pos isName, if_pos isName]
    exact .some renamed
  · rw [if_neg isName, if_neg isName]
    exact found

/-- The frames of a procedure and of a renamed version, called with related values. -/
theorem relates_frames
    {closure : Procedure}
    {env : Env}
    (fits : renamer.Fits closure)
    (captured :
      ∀ text ∈ renamer.scope, text ∉ closure.params →
        Option.Rel Datum.Renamed (closure.env.get? text) (env.get? (renamer.change text)))
    {values others : List Datum}
    (renamed : List.Forall₂ Datum.Renamed values others)
    (enough : values.length = closure.params.length) :
    renamer.Relates (closure.frame values) ((closure.rename renamer env).frame others) := by
  refine relates_insertAll (List.rel_append ?_ ?_) ?_
  · rw [List.forall₂_map_left_iff, List.forall₂_map_right_iff]
    refine List.forall₂_same.mpr fun name isName => ?_
    obtain ⟨inScope, stays⟩ := fits.named name (Option.mem_toList.mp isName)
    exact ⟨inScope, stays.symm, .procedure renamer fits captured⟩
  · clear enough
    have inScope := fits.params
    rw [Closure.rename]
    generalize closure.params = params at inScope
    induction params generalizing values others with
    | nil =>
        exact .nil
    | cons param rest inductionHypothesis =>
        obtain ⟨here, later⟩ := List.forall_mem_cons.mp inScope
        cases renamed with
        | nil =>
            exact .nil
        | cons head tail =>
            exact .cons ⟨here, rfl, head⟩ (inductionHypothesis tail later)
  · intro text member notBound
    refine captured text member fun isParam => notBound ?_
    rw [List.map_append, List.map_fst_zip (Nat.le_of_eq enough.symm)]
    exact List.mem_append_right _ isParam

end Renamer

end MiniLisp
