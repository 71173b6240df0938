import MiniLisp.Proofs.Settled

namespace MiniLisp

/-!
# Lists and their items

A list can be written as an enumeration of its items, or as a construction that puts
one item after the other in front of the empty list.  The enumeration is one form
whose arguments are evaluated in a row; the construction is a form in a form for each
item, and looks at every level whether there is a list to put the item in front of.

Both evaluate the same expressions in the same order and in the same bindings, so
they come to the same list, leave the same bindings, or stop with the same fault.
-/

/-- An operation on lists with its arguments, as an expression. -/
def ListOperation.form (op : ListOperation) (args : List Datum) : Datum :=
  .list (.word (.listOperation op) :: args)

/-- Items that are put in front of the empty list, as nested forms. -/
def constructed : List Datum → Datum
  | [] => ListOperation.enumerate.form []
  | item :: rest => ListOperation.construct.form [item, constructed rest]

/-- What is left of a list without a number of items at its front, as an expression. -/
def restAfter : Nat → Datum → Datum
  | 0, expression => expression
  | count + 1, expression => restAfter count (ListOperation.rest.form [expression])

/-- The item at a position of a list, as an expression. -/
def itemAt (index : Nat) (expression : Datum) : Datum :=
  ListOperation.first.form [restAfter index expression]

/-- Arguments evaluated in a row, within any limit. -/
def argumentsRun (args : List Datum) (env : Env) : Run (List Datum × Env) where
  within limit := evaluateArgs (evaluate limit) args env
  cutShort higher := evaluateArgs_cutShort (evaluate_cutShort higher) args env

/-- What an operation comes to with the values of its arguments, beside the bindings they left. -/
def operationRun (op : ListOperation) (values : List Datum) (left : Env) : Run (Datum × Env) where
  within _ := liftEval (applyListOperation op values) >>= fun value => .ok (value, left)
  cutShort _ := .full _

section Forms

variable {env left : Env}

/-- Arguments are evaluated one after the other, each in the bindings left by the one before. -/
theorem argumentsRun_cons
    (arg : Datum)
    (rest : List Datum)
    (env : Env) :
    argumentsRun (arg :: rest) env =
      (evaluation arg env).bind fun first =>
        (argumentsRun rest first.2).bind fun later =>
          .pure (first.1 :: later.1, later.2) := rfl

/-- An operation with the right number of arguments is applied to their values. -/
theorem evaluation_operation_equivalent
    (op : ListOperation)
    (args : List Datum)
    (fits : op.arityError? args.length = none)
    (env : Env) :
    (evaluation (op.form args) env).Equivalent
      ((argumentsRun args env).bind fun result => operationRun op result.1 result.2) := by
  refine .of_levels 1 0 fun limit => ?_
  change evaluateListOperation (evaluate limit) op args env = _
  rw [evaluateListOperation, fits]
  rfl

/-- Arguments in turn are arguments in a row. -/
theorem InTurn.settles_argumentsRun
    {args values : List Datum}
    (inTurn : InTurn args env values left) :
    (argumentsRun args env).Settles (.ok (values, left)) := by
  induction inTurn with
  | nil env =>
      exact Run.settles_pure_iff.mpr rfl
  | cons first _ inductionHypothesis =>
      rw [argumentsRun_cons, Run.settles_bind_iff]
      refine .inr ⟨_, first, ?_⟩
      rw [Run.settles_bind_iff]
      exact .inr ⟨_, inductionHypothesis, Run.settles_pure_iff.mpr rfl⟩

theorem InTurn.length_eq
    {args values : List Datum}
    (inTurn : InTurn args env values left) :
    values.length = args.length := by
  induction inTurn with
  | nil env =>
      rfl
  | cons _ _ inductionHypothesis =>
      exact congrArg Nat.succ inductionHypothesis

end Forms

/-- The list of the values of arguments in a row, within any limit. -/
def listRun (args : List Datum) (env : Env) : Run (Datum × Env) :=
  (argumentsRun args env).bind fun result => .pure (.list result.1, result.2)

theorem evaluation_enumerate_equivalent
    (args : List Datum)
    (env : Env) :
    (evaluation (ListOperation.enumerate.form args) env).Equivalent (listRun args env) :=
  evaluation_operation_equivalent .enumerate args rfl env

/-- A construction evaluates the item, then the list, and puts the item in front. -/
theorem evaluation_construct_equivalent
    (item tail : Datum)
    (env : Env) :
    (evaluation (ListOperation.construct.form [item, tail]) env).Equivalent
      ((evaluation item env).bind fun first =>
        (evaluation tail first.2).bind fun second =>
          operationRun .construct [first.1, second.1] second.2) := by
  have formRun := evaluation_operation_equivalent .construct [item, tail] rfl env
  simp only [argumentsRun_cons, Run.bind_assoc, Run.pure_bind] at formRun
  exact formRun

/-- Items put in front of the empty list are the list of their values, evaluated in a row. -/
theorem evaluation_constructed_equivalent
    (items : List Datum)
    (env : Env) :
    (evaluation (constructed items) env).Equivalent (listRun items env) := by
  induction items generalizing env with
  | nil =>
      exact evaluation_enumerate_equivalent [] env
  | cons item rest inductionHypothesis =>
      refine (evaluation_construct_equivalent item (constructed rest) env).trans ?_
      rw [listRun, argumentsRun_cons]
      simp only [Run.bind_assoc, Run.pure_bind]
      refine .bind (.refl _) fun first => ?_
      -- The tail is a list, whatever its items are, so the item can be put in front of it.
      refine ((inductionHypothesis first.2).bind fun _ => .refl _).trans ?_
      rw [listRun]
      simp only [Run.bind_assoc, Run.pure_bind]
      exact .refl _

section Items

variable {expression value result : Datum} {items : List Datum} {env left : Env}

/-- An operation on one list is applied to what the list is found to be. -/
theorem settles_operation_single
    {op : ListOperation}
    (single : op.arity? = some 1)
    (settles : (evaluation expression env).Settles (.ok (value, left)))
    (applied : applyListOperation op [value] = .ok result) :
    (evaluation (op.form [expression]) env).Settles (.ok (result, left)) := by
  have fits : op.arityError? [expression].length = none := by
    simp [ListOperation.arityError?, single]
  have inTurn : InTurn [expression] env [value] left := .cons settles (.nil left)
  have gives : (operationRun op [value] left).Settles (.ok (result, left)) := by
    refine ⟨nofun, 0, ?_⟩
    change (liftEval (applyListOperation op [value]) >>= _) = _
    rw [applied]
    rfl
  rw [evaluation_operation_equivalent op [expression] fits env _, Run.settles_bind_iff]
  exact .inr ⟨_, inTurn.settles_argumentsRun, gives⟩

/-- The item at a position is found by taking rests and then the first item. -/
theorem settles_itemAt
    {index : Nat}
    (settles : (evaluation expression env).Settles (.ok (.list items, left)))
    (found : items[index]? = some value) :
    (evaluation (itemAt index expression) env).Settles (.ok (value, left)) := by
  induction index generalizing expression items with
  | zero =>
      cases items with
      | nil =>
          cases found
      | cons first rest =>
          cases found
          exact settles_operation_single rfl settles rfl
  | succ index inductionHypothesis =>
      cases items with
      | nil =>
          cases found
      | cons first rest =>
          have shorter :
              (evaluation (ListOperation.rest.form [expression]) env).Settles
                (.ok (.list rest, left)) :=
            settles_operation_single rfl settles rfl
          exact inductionHypothesis shorter found

end Items

/--
An enumeration is an iterated construction: both come to the same value and the same
bindings, or to the same fault.  If all items have values in turn, then the first
item after any number of rests of either form is the value at this position, with
the bindings that all the items leave.
-/
theorem enumeration_is_iterated_construction
    (items : List Datum)
    (env : Env) :
    (evaluation (ListOperation.enumerate.form items) env).Equivalent
        (evaluation (constructed items) env) ∧
      ∀ values left,
        InTurn items env values left →
          ∀ index,
            index < items.length →
              ∃ value,
                values[index]? = some value ∧
                  (evaluation (itemAt index (ListOperation.enumerate.form items)) env).Settles
                    (.ok (value, left)) ∧
                  (evaluation (itemAt index (constructed items)) env).Settles
                    (.ok (value, left)) := by
  have enumerated := evaluation_enumerate_equivalent items env
  have iterated := evaluation_constructed_equivalent items env
  refine ⟨enumerated.trans iterated.symm, ?_⟩
  intro values left inTurn index below
  have listed : (listRun items env).Settles (.ok (.list values, left)) := by
    rw [listRun, Run.settles_bind_iff]
    exact .inr ⟨_, inTurn.settles_argumentsRun, Run.settles_pure_iff.mpr rfl⟩
  obtain ⟨value, found⟩ : ∃ value, values[index]? = some value := by
    rw [← inTurn.length_eq] at below
    exact ⟨values[index], List.getElem?_eq_getElem below⟩
  refine ⟨value, found, ?_, ?_⟩
  · exact settles_itemAt ((enumerated _).mpr listed) found
  · exact settles_itemAt ((iterated _).mpr listed) found

/-- The first item defines what the second one is; the bindings with it are left at the end. -/
theorem enumeration_is_iterated_construction_defining :
    let definition : Datum := .list [.word (.specialForm .definition), .name "x", .bool true]
    let left : Env := .ofList [("x", .bool true)]
    InTurn [definition, .name "x"] .empty [.name "x", .bool true] left ∧
      ∃ value,
        [Datum.name "x", .bool true][1]? = some value ∧
          (evaluation (itemAt 1 (ListOperation.enumerate.form [definition, .name "x"]))
            .empty).Settles (.ok (value, left)) ∧
          (evaluation (itemAt 1 (constructed [definition, .name "x"])) .empty).Settles
            (.ok (value, left)) := by
  intro definition left
  have defined : (evaluation definition .empty).Settles (.ok (.name "x", left)) :=
    ⟨nofun, 2, rfl⟩
  have used : (evaluation (.name "x") left).Settles (.ok (.bool true, left)) :=
    ⟨nofun, 1, rfl⟩
  have inTurn : InTurn [definition, .name "x"] .empty [.name "x", .bool true] left :=
    .cons defined (.cons used (.nil left))
  have items := (enumeration_is_iterated_construction [definition, .name "x"] .empty).2
  exact ⟨inTurn, items _ _ inTurn 1 (by decide)⟩

end MiniLisp
