import MiniLisp.Proofs.Grammar
import MiniLisp.Proofs.Numeral

namespace MiniLisp

/-!
# Printing and parsing are inverse

The text of an expression without doubles has the tokens that the expression was
read from, with every integer numeral in its canonical form.  The canonical
tokens derive the same expression, so parsing the text gives it back.
-/

namespace Datum

mutual

/-- Whether no double stands in an expression, at any depth. -/
def isFloatFree : Datum → Bool
  | .number (.float _) => false
  | .list items => areFloatFree items
  | _ => true

/-- Whether no double stands in any expression of a list. -/
def areFloatFree : List Datum → Bool
  | [] => true
  | item :: rest => item.isFloatFree && areFloatFree rest

end

/-- What an atom that is no numeral denotes is printed as the atom. -/
theorem render_ofWord
    (text : String)
    (limit : Nat) :
    (ofWord text).render (limit + 1) = .ok text := by
  unfold ofWord
  split
  · next same =>
      rw [same]
      rfl
  · split
    · next same =>
        rw [same]
        rfl
    · split
      · next reserved found =>
          have spelling : reserved.text = text := by
            simpa using List.find?_some found
          rw [render, spelling]
      · rfl

end Datum

/-- A token with an integer numeral in its canonical form. -/
def Token.canonical : Token → Token
  | .atom text =>
      match integerNumeral? text.toList with
      | some (negative, digits) => .atom (String.ofList (canonicalNumeral negative digits))
      | none => .atom text
  | token => token

/-- An atom other than a double is printed as its canonical form, which denotes the same. -/
theorem Datum.canonical_of_ofAtom
    {text : String}
    {datum : Datum}
    (atomic : IsAtomText text)
    (denotes : ofAtom text = .ok datum)
    (floatFree : datum.isFloatFree = true) :
    ∃ printed,
      (Token.atom text).canonical = .atom printed ∧
        IsAtomText printed ∧
        ofAtom printed = .ok datum ∧
        ∀ limit, datum.render (limit + 1) = .ok printed := by
  have sameText := atomic.dropFinalLineFeed
  cases denotes_of_ofAtom denotes with
  | @integer negative digits numeral few =>
      rw [sameText] at numeral
      obtain ⟨nonempty, decimal⟩ := decimal_of_integerNumeral? numeral
      refine ⟨_, ?_, isAtomText_canonicalNumeral negative decimal,
        ofAtom_canonicalNumeral negative nonempty decimal few, ?_⟩
      · simp only [Token.canonical, numeral]
      · intro limit
        rw [render, Number.text, natAbs_signedInt, if_pos (hasFewDigits_ofDigits decimal few),
          ← repr_signedInt negative decimal, String.ofList_toList]
  | float notInteger numeral =>
      cases floatFree
  | word notInteger notFloat =>
      rw [sameText] at notInteger
      refine ⟨text, ?_, atomic, denotes, render_ofWord text⟩
      simp only [Token.canonical, notInteger]

mutual

/-- The canonical tokens of an expression derive the same expression. -/
theorem Derives.map_canonical
    {tokens : List Token}
    {datum : Datum} :
    Derives tokens datum →
      (∀ text, .atom text ∈ tokens → IsAtomText text) →
        datum.isFloatFree = true →
          Derives (tokens.map Token.canonical) datum
  | @Derives.atom text datum denotes, proper, floatFree => by
      obtain ⟨printed, canonical, -, denotesPrinted, -⟩ :=
        Datum.canonical_of_ofAtom (proper text (by simp)) denotes floatFree
      rw [List.map_singleton, canonical]
      exact .atom denotesPrinted
  | @Derives.list inner items sequence, proper, floatFree => by
      have inside := DerivesAll.map_canonical sequence
        (fun text member => proper text (by simp [member])) floatFree
      rw [List.map_append, List.map_cons]
      exact .list inside

theorem DerivesAll.map_canonical
    {tokens : List Token}
    {items : List Datum} :
    DerivesAll tokens items →
      (∀ text, .atom text ∈ tokens → IsAtomText text) →
        Datum.areFloatFree items = true →
          DerivesAll (tokens.map Token.canonical) items
  | .nil, _, _ => .nil
  | @DerivesAll.cons first rest datum items head tail, proper, floatFree => by
      obtain ⟨headFree, tailFree⟩ := Bool.and_eq_true_iff.mp floatFree
      have headCanonical := Derives.map_canonical head
        (fun text member => proper text (by simp [member])) headFree
      have tailCanonical := DerivesAll.map_canonical tail
        (fun text member => proper text (by simp [member])) tailFree
      rw [List.map_append]
      exact .cons headCanonical tailCanonical

end

mutual

/--
An expression is nested too deep to be printed, or its text has its canonical tokens.

The induction is on the derivation, since it tells which tokens belong to which
part of the expression; the limit goes down with it.
-/
theorem Derives.render
    {tokens : List Token}
    {datum : Datum} :
    Derives tokens datum →
      (∀ text, .atom text ∈ tokens → IsAtomText text) →
        datum.isFloatFree = true →
          ∀ limit,
            datum.render limit = .error .tooDeep ∨
              ∃ text,
                datum.render limit = .ok text ∧ tokenize text = tokens.map Token.canonical
  | _, _, _, 0 => .inl rfl
  | @Derives.atom text datum denotes, proper, floatFree, limit + 1 => by
      obtain ⟨printed, canonical, atomic, -, rendered⟩ :=
        Datum.canonical_of_ofAtom (proper text (by simp)) denotes floatFree
      refine .inr ⟨printed, rendered limit, ?_⟩
      rw [List.map_singleton, canonical, tokenize_of_isAtomText atomic]
  | @Derives.list inner items sequence, proper, floatFree, limit + 1 => by
      have inside := DerivesAll.render sequence
        (fun text member => proper text (by simp [member])) floatFree limit
      rw [Datum.render]
      rcases inside with tooDeep | ⟨texts, rendered, sameTokens⟩
      · rw [tooDeep]
        exact .inl rfl
      · rw [rendered]
        refine .inr ⟨_, rfl, ?_⟩
        rw [tokenize_parenthesized, tokenize_intercalate, sameTokens, List.map_append,
          List.map_cons]
        rfl

theorem DerivesAll.render
    {tokens : List Token}
    {items : List Datum} :
    DerivesAll tokens items →
      (∀ text, .atom text ∈ tokens → IsAtomText text) →
        Datum.areFloatFree items = true →
          ∀ limit,
            items.mapM (Datum.render limit) = .error .tooDeep ∨
              ∃ texts,
                items.mapM (Datum.render limit) = .ok texts ∧
                  texts.flatMap tokenize = tokens.map Token.canonical
  | .nil, _, _, _ => .inr ⟨[], rfl, rfl⟩
  | @DerivesAll.cons first rest datum items head tail, proper, floatFree, limit => by
      obtain ⟨headFree, tailFree⟩ := Bool.and_eq_true_iff.mp floatFree
      have headText := Derives.render head
        (fun text member => proper text (by simp [member])) headFree limit
      have tailTexts := DerivesAll.render tail
        (fun text member => proper text (by simp [member])) tailFree limit
      rw [List.mapM_cons]
      rcases headText with tooDeep | ⟨text, rendered, sameTokens⟩
      · rw [tooDeep]
        exact .inl rfl
      · rcases tailTexts with tooDeep | ⟨texts, restRendered, restTokens⟩
        · rw [rendered, tooDeep]
          exact .inl rfl
        · rw [rendered, restRendered]
          refine .inr ⟨text :: texts, rfl, ?_⟩
          rw [List.flatMap_cons, sameTokens, restTokens, List.map_append]

end

/--
Printing an expression that was read, without doubles in it and nested no deeper
than printing allows, succeeds.  Its text reads as the same expression, and has
the tokens that the expression was read from with every integer numeral in its
canonical form.
-/
theorem parse_render_canonical
    (limit printLimit : Nat)
    (source : String)
    (expression : Datum)
    (parsed : parse limit source = .ok expression)
    (floatFree : expression.isFloatFree = true)
    (shallow : expression.render printLimit ≠ .error .tooDeep) :
    ∃ text,
      expression.render printLimit = .ok text ∧
        parse limit text = .ok expression ∧
        tokenize text = (tokenize source).map Token.canonical := by
  have proper (text : String) (member : .atom text ∈ tokenize source) : IsAtomText text :=
    isAtomText_of_mem_tokenize member
  obtain ⟨nested, derived⟩ := parse_eq_ok_iff.mp parsed
  rcases derived.render proper floatFree printLimit with tooDeep | ⟨text, rendered, sameTokens⟩
  · exact absurd tooDeep shallow
  · refine ⟨text, rendered, parse_eq_ok_iff.mpr ⟨nested, ?_⟩, sameTokens⟩
    rw [sameTokens]
    exact derived.map_canonical proper floatFree

/-- Digits of another script, zeros in front and the sign of zero go; the rest stays. -/
theorem parse_render_canonical_mixed :
    parse 1 "(x ٠٠٧ -0)" = .ok (.list [.name "x", .number (.int 7), .number (.int 0)]) ∧
    (Datum.list [.name "x", .number (.int 7), .number (.int 0)]).render 2 = .ok "(x 7 0)" ∧
    ∃ text,
      (Datum.list [.name "x", .number (.int 7), .number (.int 0)]).render 2 = .ok text ∧
        parse 1 text = .ok (.list [.name "x", .number (.int 7), .number (.int 0)]) ∧
        tokenize text = (tokenize "(x ٠٠٧ -0)").map Token.canonical := by
  have parsed :
      parse 1 "(x ٠٠٧ -0)" = .ok (.list [.name "x", .number (.int 7), .number (.int 0)]) := by
    rfl
  have rendered :
      (Datum.list [.name "x", .number (.int 7), .number (.int 0)]).render 2 = .ok "(x 7 0)" := by
    rfl
  have shallow :
      (Datum.list [.name "x", .number (.int 7), .number (.int 0)]).render 2 ≠
        .error .tooDeep := by
    rw [rendered]
    nofun
  exact ⟨parsed, rendered, parse_render_canonical 1 2 _ _ parsed rfl shallow⟩

end MiniLisp
