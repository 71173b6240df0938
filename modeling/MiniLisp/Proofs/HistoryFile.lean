import MiniLisp.History
import MiniLisp.Proofs.Utf8

namespace MiniLisp

/-!
# Files that grow

Adding to a file changes what stands at its place and nothing else.  A path leads
to the same place afterwards, because every step on the way starts in a directory
and the file is none.  So what is added to one path one after the other ends up in
one file in this order, or is dropped by a device, or is refused every time.

`Grown` are the states that a disk comes to when texts are added at a path.
-/

namespace Disk

section Putting

variable {disk : Disk} {place other : Place} {entry : Entry}

theorem lookup_filter_of_ne
    (entries : List (Place × Entry))
    (different : other ≠ place) :
    (entries.filter fun old => old.1 ≠ place).lookup other = entries.lookup other := by
  induction entries with
  | nil =>
      rfl
  | cons first rest inductionHypothesis =>
      obtain ⟨key, value⟩ := first
      by_cases replaced : key = place
      · have notAsked : (other == key) = false := by
          simpa [replaced] using different
        rw [List.filter_cons_of_neg (by simpa using replaced), List.lookup_cons, notAsked]
        exact inductionHypothesis
      · rw [List.filter_cons_of_pos (by simpa using replaced), List.lookup_cons, List.lookup_cons,
          inductionHypothesis]

/-- Putting an entry at a place changes no other place. -/
theorem entry?_put_of_ne
    (different : other ≠ place) :
    Disk.entry? (disk.put place entry) other = disk.entry? other := by
  have notAsked : (other == place) = false := by
    simpa using different
  simp only [ entry?, put, List.lookup_cons, notAsked, lookup_filter_of_ne _ different]

theorem entry?_put_self
    (offTheWay : place.isPrefixOf disk.working = false) :
    Disk.entry? (disk.put place entry) place = some entry := by
  simp [ entry?, put, offTheWay]

theorem put_put
    (disk : Disk)
    (place : Place)
    (entry later : Entry) :
    (disk.put place entry).put place later = disk.put place later := by
  simp [put, List.filter_filter]

/-- A step starts in a directory, and so does not notice what is put where none is. -/
theorem step_put
    {start goal : Place}
    {name : String}
    (notDirectory : disk.entry? place ≠ some .directory)
    (stepped : disk.step start name = .ok goal) :
    (disk.put place entry).step start name = .ok goal := by
  cases found : disk.entry? start with
  | none =>
      simp only [step, found] at stepped
      cases stepped
  | some standing =>
      cases standing with
      | directory =>
          have elsewhere : start ≠ place := by
            rintro rfl
            exact notDirectory found
          simp only [step, found] at stepped
          simp only [step, entry?_put_of_ne elsewhere, found]
          exact stepped
      | file content =>
          simp only [step, found] at stepped
          cases stepped
      | device content =>
          simp only [step, found] at stepped
          cases stepped

theorem foldlM_step_put
    {start goal : Place}
    {steps : List String}
    (notDirectory : disk.entry? place ≠ some .directory)
    (followed : steps.foldlM disk.step start = .ok goal) :
    steps.foldlM (disk.put place entry).step start = .ok goal := by
  induction steps generalizing start with
  | nil =>
      exact followed
  | cons name rest inductionHypothesis =>
      rw [List.foldlM_cons] at followed ⊢
      cases first : disk.step start name with
      | error error =>
          rw [first] at followed
          cases followed
      | ok next =>
          rw [first] at followed
          rw [step_put notDirectory first]
          exact inductionHypothesis followed

/-- A path that leads somewhere still leads there. -/
theorem locate_put
    {path : String}
    {goal : Place}
    (notDirectory : disk.entry? place ≠ some .directory)
    (located : disk.locate path = .ok goal) :
    (disk.put place entry).locate path = .ok goal := by
  unfold locate follow at located ⊢
  by_cases short : path.utf8ByteSize ≤ maxPathBytes
  · rw [if_pos short] at located ⊢
    exact foldlM_step_put notDirectory located
  · rw [if_neg short] at located
    cases located

end Putting

/-- The file to which a path leads with what it holds; a file that is missing holds nothing. -/
structure Target (disk : Disk) (path : String) (place : Place) (content : List UInt8) :
    Prop where
  form : endsInDirectory path = false
  located : disk.locate path = .ok place
  held : disk.entry? place = some (.file content) ∨ disk.entry? place = none ∧ content = []

namespace Target

variable {disk : Disk} {path : String} {place : Place} {content : List UInt8}

theorem notDirectory
    (target : disk.Target path place content) :
    disk.entry? place ≠ some .directory := by
  intro directory
  rcases target.held with file | ⟨missing, -⟩
  · rw [directory] at file
    cases file
  · rw [directory] at missing
    cases missing

theorem offTheWay
    (target : disk.Target path place content) :
    place.isPrefixOf disk.working = false := by
  apply Bool.eq_false_iff.mpr
  intro onTheWay
  apply target.notDirectory
  simp only [ entry?, onTheWay, ↓reduceIte]

/-- A path has one target. -/
theorem unique
    {otherPlace : Place}
    {otherContent : List UInt8}
    (target : disk.Target path place content)
    (other : disk.Target path otherPlace otherContent) :
    otherPlace = place ∧ otherContent = content := by
  have samePlace := target.located.symm.trans other.located
  cases samePlace
  refine ⟨rfl, ?_⟩
  rcases target.held with file | ⟨missing, rfl⟩
  · rcases other.held with otherFile | ⟨otherMissing, -⟩
    · rw [file] at otherFile
      cases otherFile
      rfl
    · rw [file] at otherMissing
      cases otherMissing
  · rcases other.held with otherFile | ⟨-, rfl⟩
    · rw [missing] at otherFile
      cases otherFile
    · rfl

/-- A target is read, unless it is missing. -/
theorem read
    (target : disk.Target path place content) :
    disk.read path = .ok content ∨ disk.read path = .error .missing ∧ content = [] := by
  rcases target.held with file | ⟨missing, empty⟩
  · exact .inl (by simp [Disk.read, target.located, file, target.form])
  · exact .inr ⟨by simp [Disk.read, target.located, missing], empty⟩

/-- What is put at the target of a path is its target from then on. -/
theorem put
    (target : disk.Target path place content)
    (bytes : List UInt8) :
    (disk.put place (.file bytes)).Target path place bytes where
  form := target.form
  located := locate_put target.notDirectory target.located
  held := .inl (entry?_put_self target.offTheWay)

/-- What is put at the target of a path is read there. -/
theorem read_put
    (target : disk.Target path place content)
    (bytes : List UInt8) :
    (disk.put place (.file bytes)).read path = .ok bytes := by
  have located := (target.put bytes).located
  have standing : Disk.entry? (disk.put place (.file bytes)) place = some (.file bytes) :=
    entry?_put_self target.offTheWay
  simp [Disk.read, located, standing, target.form]

/-- Additions go to the end of the target. -/
theorem append
    (target : disk.Target path place content)
    (bytes : List UInt8) :
    disk.append path bytes = .ok (disk.put place (.file (content ++ bytes))) := by
  rcases target.held with file | ⟨missing, rfl⟩
  · simp [Disk.append, target.form, target.located, file]
  · simp [Disk.append, target.form, target.located, missing]

end Target

/-- Where a path has no target, an addition that is not refused is dropped. -/
theorem append_of_no_target
    {disk next : Disk}
    {path : String}
    {bytes : List UInt8}
    (noTarget : ¬∃ place content, disk.Target path place content)
    (appended : disk.append path bytes = .ok next) :
    next = disk := by
  unfold append at appended
  split at appended
  · split at appended
    · cases appended
    · cases appended
  · next form =>
      have plain : endsInDirectory path = false := by
        simpa using form
      split at appended
      · cases appended
      · next place located =>
          split at appended
          · next missing =>
              exact absurd ⟨place, [], plain, located, .inr ⟨missing, rfl⟩⟩ noTarget
          · next content file =>
              exact absurd ⟨place, content, plain, located, .inl file⟩ noTarget
          · cases appended
          · cases appended
            rfl

/-- A disk, or this disk with texts added at a path. -/
inductive Grown (path : String) (base : Disk) : Disk → Prop where
  | unchanged : Grown path base base
  | added
      {place : Place}
      {content : List UInt8}
      {text : List Char}
      (target : base.Target path place content) :
      Grown path base (base.put place (.file (content ++ Text.encode text)))

namespace Grown

variable {path : String} {base disk next : Disk} {place : Place} {content : List UInt8}

/-- Another addition goes after all those before. -/
theorem append_of_target
    (grown : Grown path base disk)
    (target : base.Target path place content)
    (text : List Char) :
    ∃ earlier,
      disk.append path (Text.encode text) =
        .ok (base.put place (.file (content ++ Text.encode (earlier ++ text)))) := by
  cases grown with
  | unchanged =>
      exact ⟨[], target.append _⟩
  | @added otherPlace otherContent earlier other =>
      obtain ⟨rfl, rfl⟩ := target.unique other
      refine ⟨earlier, ?_⟩
      rw [(target.put _).append, put_put, List.append_assoc]
      simp [Text.encode]

theorem eq_of_no_target
    (grown : Grown path base disk)
    (noTarget : ¬∃ place content, base.Target path place content) :
    disk = base := by
  cases grown with
  | unchanged =>
      rfl
  | added target =>
      exact absurd ⟨_, _, target⟩ noTarget

/-- Adding a text keeps a disk among those grown from the same one. -/
theorem append
    {text : List Char}
    (grown : Grown path base disk)
    (appended : disk.append path (Text.encode text) = .ok next) :
    Grown path base next := by
  by_cases target : ∃ place content, base.Target path place content
  · obtain ⟨place, content, target⟩ := target
    obtain ⟨earlier, longer⟩ := grown.append_of_target target text
    rw [longer] at appended
    cases appended
    exact .added target
  · rw [grown.eq_of_no_target target] at appended
    rw [append_of_no_target target appended]
    exact .unchanged

end Grown

end Disk

end MiniLisp
