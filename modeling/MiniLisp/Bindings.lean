namespace MiniLisp

/-!
# Bindings

A finite map from names to values.  It is a value: binding a name gives new
bindings, and whoever holds the old ones sees what it saw before.  Each name
stands once, in the order in which the names were first bound.

The view of bindings is `get?`; `get?_insert` and `get?_insertAll` say what
binding does to it.
-/

/-- A finite map from names to values. -/
structure Bindings (α : Type) where
  entries : List (String × α)

namespace Bindings

/-- Puts a value under a name, in place of the value that stood there. -/
def put {α : Type} (name : String) (value : α) : List (String × α) → List (String × α)
  | [] => [(name, value)]
  | (other, old) :: rest =>
      if other = name then
        (name, value) :: rest
      else
        (other, old) :: put name value rest

/-- No bindings at all. -/
def empty {α : Type} : Bindings α :=
  ⟨[]⟩

/-- The value of a name, if it is bound. -/
def get? {α : Type} (bindings : Bindings α) (name : String) : Option α :=
  bindings.entries.lookup name

/-- Binds a name, over any value it had. -/
def insert {α : Type} (bindings : Bindings α) (name : String) (value : α) : Bindings α :=
  ⟨put name value bindings.entries⟩

/-- Binds names one after the other, so that of two values for a name the later one stands. -/
def insertAll {α : Type} (bindings : Bindings α) (pairs : List (String × α)) : Bindings α :=
  pairs.foldl (fun current pair => current.insert pair.1 pair.2) bindings

/-- Bindings from pairs of a name and its value. -/
def ofList {α : Type} (pairs : List (String × α)) : Bindings α :=
  empty.insertAll pairs

/-- Nothing is bound in empty bindings. -/
@[simp] theorem get?_empty {α : Type} (name : String) :
    (empty : Bindings α).get? name = none := rfl

/-- Looking a name up goes on until it is found. -/
theorem lookup_cons_eq_if
    {α : Type}
    (name other : String)
    (value : α)
    (rest : List (String × α)) :
    ((other, value) :: rest).lookup name =
      if name = other then some value else rest.lookup name := by
  by_cases same : name = other
  · simp [same]
  · simp [List.lookup_cons, same, beq_eq_false_iff_ne.2 same]

/-- Putting a value under a name changes what stands under this name and under no other. -/
theorem lookup_put
    {α : Type}
    (name other : String)
    (value : α)
    (entries : List (String × α)) :
    (put name value entries).lookup other =
      if other = name then some value else entries.lookup other := by
  induction entries with
  | nil =>
      simp [put, lookup_cons_eq_if]
  | cons first rest inductionHypothesis =>
      obtain ⟨key, old⟩ := first
      by_cases found : key = name
      · subst found
        simp only [put, ↓reduceIte, lookup_cons_eq_if]
        split <;> rfl
      · simp only [put, found, ↓reduceIte, lookup_cons_eq_if, inductionHypothesis]
        by_cases asked : other = key
        · subst asked
          simp [found]
        · simp [asked]

/-- Binding a name changes the value of this name and of no other. -/
theorem get?_insert
    {α : Type}
    (bindings : Bindings α)
    (name other : String)
    (value : α) :
    (bindings.insert name value).get? other =
      if other = name then some value else bindings.get? other :=
  lookup_put name other value bindings.entries

/-- Of the values bound to a name one after the other, the last one stands. -/
theorem get?_insertAll
    {α : Type}
    (bindings : Bindings α)
    (pairs : List (String × α))
    (name : String) :
    (bindings.insertAll pairs).get? name =
      (pairs.reverse.lookup name).or (bindings.get? name) := by
  induction pairs generalizing bindings with
  | nil =>
      simp [insertAll]
  | cons first rest inductionHypothesis =>
      have step := inductionHypothesis (bindings.insert first.1 first.2)
      simp only [insertAll, List.foldl_cons] at step ⊢
      rw [step, get?_insert, List.reverse_cons, List.lookup_append, lookup_cons_eq_if]
      cases rest.reverse.lookup name with
      | some value =>
          simp
      | none =>
          by_cases same : name = first.1 <;> simp [same]

end Bindings

end MiniLisp
