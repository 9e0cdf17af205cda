/-
This file gives the operations on lists of named things that keep the order in
which the names came: rows keep their fields this way, queries their conditions
and stores their tables. Assigning to a name that is there changes its entry in
place, and assigning to a new name appends an entry.
-/

namespace IndexedStore

variable {α : Type}

/-- Gives a name its content: in the first entry of that name, or else at the end. -/
def assign (name : String) (content : α) : List (String × α) → List (String × α)
  | [] => [(name, content)]
  | (other, old) :: rest =>
    if other = name then (name, content) :: rest else (other, old) :: assign name content rest

/-- Leaves out the entries of a name. -/
def unassign (name : String) (entries : List (String × α)) : List (String × α) :=
  entries.filter fun entry => entry.1 != name

/-! ### Names -/

@[simp]
theorem mem_names_assign {name other : String} {content : α} {entries : List (String × α)} :
    other ∈ (assign name content entries).map Prod.fst ↔
      other = name ∨ other ∈ entries.map Prod.fst := by
  induction entries with
  | nil => simp [assign]
  | cons head rest inductionHypothesis =>
    obtain ⟨headName, headContent⟩ := head
    by_cases equal : headName = name
    · subst equal
      simp [assign]
    · simp only [assign, if_neg equal, List.map_cons, List.mem_cons, inductionHypothesis]
      exact or_left_comm

/-- Assigning keeps the names distinct. -/
theorem assign_distinct {name : String} {content : α} {entries : List (String × α)}
    (distinct : (entries.map Prod.fst).Nodup) :
    ((assign name content entries).map Prod.fst).Nodup := by
  induction entries with
  | nil => simp [assign]
  | cons head rest inductionHypothesis =>
    obtain ⟨headName, headContent⟩ := head
    simp only [List.map_cons, List.nodup_cons] at distinct
    by_cases equal : headName = name
    · subst equal
      simpa [assign] using distinct
    · simp only [assign, if_neg equal, List.map_cons, List.nodup_cons]
      refine ⟨fun member => ?_, inductionHypothesis distinct.2⟩
      rcases mem_names_assign.mp member with same | inRest
      · exact equal same
      · exact distinct.1 inRest

/-- A new name gets its content at the end. -/
theorem assign_of_not_mem {name : String} {content : α} {entries : List (String × α)}
    (fresh : name ∉ entries.map Prod.fst) :
    assign name content entries = entries ++ [(name, content)] := by
  induction entries with
  | nil => rfl
  | cons head rest inductionHypothesis =>
    rw [List.map_cons, List.mem_cons, not_or] at fresh
    rw [assign, if_neg (Ne.symm fresh.1), inductionHypothesis fresh.2, List.cons_append]

/-- A name keeps the content that it was given last. -/
@[simp]
theorem assign_assign {name : String} {content content' : α} {entries : List (String × α)} :
    assign name content' (assign name content entries) = assign name content' entries := by
  induction entries with
  | nil => simp [assign]
  | cons head rest inductionHypothesis =>
    obtain ⟨headName, old⟩ := head
    by_cases isHead : headName = name
    · simp [assign, isHead]
    · simp [assign, isHead, inductionHypothesis]

/-- Leaving out a name keeps the others distinct. -/
theorem unassign_distinct {name : String} {entries : List (String × α)}
    (distinct : (entries.map Prod.fst).Nodup) :
    ((unassign name entries).map Prod.fst).Nodup :=
  distinct.sublist (List.filter_sublist.map Prod.fst)

/-! ### Looking up -/

/-- What is found under a name is in the list under that name. -/
theorem mem_of_lookup {name : String} {content : α} {entries : List (String × α)}
    (found : entries.lookup name = some content) : (name, content) ∈ entries := by
  obtain ⟨before, after, rfl, -⟩ := List.lookup_eq_some_iff.mp found
  exact List.mem_append_right _ List.mem_cons_self

/-- A change of the contents is seen when they are looked up. -/
@[simp]
theorem lookup_map {β : Type} (change : α → β) (name : String) (entries : List (String × α)) :
    (entries.map fun entry => (entry.1, change entry.2)).lookup name =
      (entries.lookup name).map change := by
  induction entries with
  | nil => rfl
  | cons head rest inductionHypothesis =>
    rw [List.map_cons, List.lookup_cons, List.lookup_cons, inductionHypothesis]
    split <;> rfl

@[simp]
theorem lookup_assign_self {name : String} {content : α} {entries : List (String × α)} :
    (assign name content entries).lookup name = some content := by
  induction entries with
  | nil => simp [assign]
  | cons head rest inductionHypothesis =>
    obtain ⟨headName, headContent⟩ := head
    by_cases equal : headName = name
    · simp [assign, equal]
    · have check : (name == headName) = false := by simpa using Ne.symm equal
      simp [assign, equal, List.lookup_cons, check, inductionHypothesis]

@[simp]
theorem lookup_assign_other {name other : String} {content : α} {entries : List (String × α)}
    (different : other ≠ name) :
    (assign name content entries).lookup other = entries.lookup other := by
  have check : (other == name) = false := by simpa using different
  induction entries with
  | nil => simp [assign, List.lookup_cons, check]
  | cons head rest inductionHypothesis =>
    obtain ⟨headName, headContent⟩ := head
    by_cases equal : headName = name
    · simp [assign, equal, List.lookup_cons, check]
    · simp [assign, equal, List.lookup_cons, inductionHypothesis]

/-- Assigning the content that a name has changes nothing. -/
theorem assign_of_lookup {name : String} {content : α} {entries : List (String × α)}
    (found : entries.lookup name = some content) : assign name content entries = entries := by
  induction entries with
  | nil => cases found
  | cons head rest inductionHypothesis =>
    obtain ⟨headName, old⟩ := head
    rw [assign]
    by_cases isHead : headName = name
    · subst isHead
      rw [List.lookup_cons_self, Option.some_inj] at found
      rw [if_pos rfl, found]
    · have other : (name == headName) = false := by simpa using Ne.symm isHead
      rw [List.lookup_cons, other] at found
      rw [if_neg isHead, inductionHypothesis found]

@[simp]
theorem lookup_unassign {name other : String} {entries : List (String × α)} :
    (unassign name entries).lookup other = if other = name then none else entries.lookup other := by
  induction entries with
  | nil => simp [unassign]
  | cons head rest inductionHypothesis =>
    obtain ⟨headName, headContent⟩ := head
    unfold unassign at inductionHypothesis ⊢
    by_cases left : headName = name
    · subst left
      rw [List.filter_cons_of_neg (by simp), inductionHypothesis]
      by_cases same : other = headName
      · rw [if_pos same, if_pos same]
      · have check : (other == headName) = false := by simpa using same
        simp [same, List.lookup_cons, check]
    · rw [List.filter_cons_of_pos (by simpa using left)]
      by_cases same : other = headName
      · simp [same, left]
      · have check : (other == headName) = false := by simpa using same
        simp only [List.lookup_cons, check, inductionHypothesis]

end IndexedStore
