import MiniLisp.Proofs.Definable
import MiniLisp.Proofs.LexicalScope

namespace MiniLisp

/-!
# Steps that do not depend on each other

Two expressions, neither of which mentions a name that the other can define, may
be evaluated in either order.  The bindings left by the two orders are not equal:
a procedure made by the later step has captured what the earlier one defined.
But they agree on every name, and so no later expression tells them apart.
-/

/-- An expression mentions every name that it can define. -/
theorem Datum.definable_subset_mentioned
    (expression : Datum) :
    expression.definable ⊆ expression.mentioned := by
  have ofArgs (word : Word) {args : List Datum} (included : definableIn args ⊆ mentionedIn args) :
      definableIn args ⊆ mentioned (.list (.word word :: args)) :=
    List.subset_append_of_subset_right _ included
  refine definable.induct
    (fun expression => expression.definable ⊆ expression.mentioned)
    (fun items => definableIn items ⊆ mentionedIn items)
    ?_ ?_ ?_ ?_ ?_ ?_ ?_ ?_ ?_ ?_ expression
  · intro text body included
    rw [definable, List.cons_subset]
    refine ⟨by simp [mentioned, mentionedIn], fun name member => ?_⟩
    simp [mentioned, mentionedIn, included member]
  · intro text params body
    simp [definable, mentioned, mentionedIn]
  · exact fun _ => ofArgs _
  · exact fun _ _ => ofArgs _
  · exact fun _ _ => ofArgs _
  · exact fun _ _ => ofArgs _
  · exact fun _ _ => ofArgs _
  · intro other _ _ _ _ _ _ _
    simp [definable, *]
  · simp [definableIn]
  · intro item rest itemIncluded restIncluded
    rw [definableIn, mentionedIn]
    exact List.append_subset.mpr
      ⟨List.subset_append_of_subset_left _ itemIncluded,
        List.subset_append_of_subset_right _ restIncluded⟩

/-- Bindings that differ at some names only agree on the others. -/
theorem ExtendedBy.agreeOn
    {names : List String}
    {before after : Env}
    (extended : ExtendedBy names before after) :
    AgreeOn { name | name ∉ names } before after ∧
      AgreeOn { name | name ∉ names } after before :=
  ⟨.of_get?_eq fun name outside => (extended.unchanged name outside).symm,
    .of_get?_eq extended.unchanged⟩

/--
The bindings that two steps leave in either order agree on every name, if each
step, taken after the other, leaves what it leaves alone, but for names that the
other can define.
-/
theorem agreeOn_of_commuting
    {first second : Datum}
    {afterFirst afterSecond firstLast secondLast : Env}
    (apart : ∀ name ∈ second.definable, name ∉ first.definable)
    (firstExtends : ExtendedBy first.definable afterSecond firstLast)
    (secondExtends : ExtendedBy second.definable afterFirst secondLast)
    (firstAgrees : AgreeOn { name | name ∉ second.definable } afterFirst firstLast)
    (secondAgrees : AgreeOn { name | name ∉ first.definable } secondLast afterSecond) :
    AgreeOn Set.univ secondLast firstLast := by
  intro name _
  by_cases defined : name ∈ second.definable
  · have outside := apart name defined
    rw [firstExtends.unchanged name outside]
    exact secondAgrees name outside
  · rw [secondExtends.unchanged name defined]
    exact firstAgrees name defined

/--
Two expressions that both succeed, and neither of which mentions a name that the
other can define, succeed in either order.  The value of each has the same text
in both orders, and no later expression tells the bindings left by them apart.
-/
theorem independent_steps_commute
    (limit : Nat)
    (first second firstValue secondValue : Datum)
    (env afterFirst afterSecond : Env)
    (firstRun : evaluate limit first env = .ok (firstValue, afterFirst))
    (secondRun : evaluate limit second env = .ok (secondValue, afterSecond))
    (secondApart : ∀ name ∈ second.mentioned, name ∉ first.definable)
    (firstApart : ∀ name ∈ first.mentioned, name ∉ second.definable) :
    ∃ firstAgain secondAgain firstLast secondLast,
      evaluate limit second afterFirst = .ok (secondAgain, secondLast) ∧
        evaluate limit first afterSecond = .ok (firstAgain, firstLast) ∧
        firstValue.Indistinct firstAgain ∧
        secondAgain.Indistinct secondValue ∧
        ∀ (laterLimit : Nat) (later : Datum),
          SameOutcome (fun result other => result.1.Indistinct other.1)
            (evaluate laterLimit later secondLast)
            (evaluate laterLimit later firstLast) := by
  have firstFrame := (evaluate_framed limit first env).result firstRun
  have secondFrame := (evaluate_framed limit second env).result secondRun
  -- Of the two runs of a step, the left one is always from the order in which `first` is first.
  have firstRuns :=
    evaluate_respectful limit _ first env afterSecond firstApart secondFrame.agreeOn.1
  have secondRuns :=
    evaluate_respectful limit _ second afterFirst env secondApart firstFrame.agreeOn.2
  rw [firstRun] at firstRuns
  rw [secondRun] at secondRuns
  obtain ⟨⟨firstAgain, firstLast⟩, firstSucceeds, firstAlike⟩ := firstRuns.exists_of_ok_left
  obtain ⟨⟨secondAgain, secondLast⟩, secondSucceeds, secondAlike⟩ :=
    secondRuns.exists_of_ok_right
  have agree : AgreeOn Set.univ secondLast firstLast :=
    agreeOn_of_commuting
      (fun name defined => secondApart name (second.definable_subset_mentioned defined))
      ((evaluate_framed limit first afterSecond).result firstSucceeds)
      ((evaluate_framed limit second afterFirst).result secondSucceeds)
      firstAlike.env secondAlike.env
  refine ⟨firstAgain, secondAgain, firstLast, secondLast, secondSucceeds, firstSucceeds,
    firstAlike.value.indistinct, secondAlike.value.indistinct, ?_⟩
  intro laterLimit later
  have runs :=
    evaluate_respectful laterLimit Set.univ later secondLast firstLast
      (fun _ _ => Set.mem_univ _) agree
  exact runs.mono fun _ _ alike => alike.value.indistinct

/-- Of the two procedures defined here, the one defined last has captured the other. -/
theorem independent_steps_commute_captures :
    (∀ name ∈ (Datum.list
        [.word (.specialForm .definition), .list [.name "g"], .bool true]).mentioned,
      name ∉ ["f"]) ∧
    ∃ firstAgain secondAgain firstLast secondLast,
      evaluate 1
          (.list [.word (.specialForm .definition), .list [.name "g"], .bool true])
          (.ofList [("f", .procedure ⟨some "f", [], .bool false, .empty⟩)]) =
        .ok (secondAgain, secondLast) ∧
      evaluate 1
          (.list [.word (.specialForm .definition), .list [.name "f"], .bool false])
          (.ofList [("g", .procedure ⟨some "g", [], .bool true, .empty⟩)]) =
        .ok (firstAgain, firstLast) ∧
      (Datum.name "f").Indistinct firstAgain ∧
      secondAgain.Indistinct (.name "g") ∧
      ∀ (laterLimit : Nat) (later : Datum),
        SameOutcome (fun result other => result.1.Indistinct other.1)
          (evaluate laterLimit later secondLast)
          (evaluate laterLimit later firstLast) := by
  have secondApart :
      ∀ name ∈ (Datum.list
          [.word (.specialForm .definition), .list [.name "g"], .bool true]).mentioned,
        name ∉ ["f"] := by
    intro name member
    have listed : name ∈ ["define", "g"] := member
    rcases List.mem_pair.mp listed with rfl | rfl <;> decide
  have firstApart :
      ∀ name ∈ (Datum.list
          [.word (.specialForm .definition), .list [.name "f"], .bool false]).mentioned,
        name ∉ ["g"] := by
    intro name member
    have listed : name ∈ ["define", "f"] := member
    rcases List.mem_pair.mp listed with rfl | rfl <;> decide
  exact ⟨secondApart,
    independent_steps_commute 1 _ _ _ _ .empty _ _ rfl rfl secondApart firstApart⟩

end MiniLisp
