import Mathlib.Data.List.Forall2

/-!
# Results of reading

What is read is a value or an error. Steps that follow each other end with the first error, and so
does reading a list item by item: it yields a result for each item, or the error of the first item
that is refused.

Main statements: `mapM_eq_ok_iff` and `mapM_eq_error_iff`.
-/

namespace DeclarationDocs.Json

variable {ε α β : Type}

theorem exists_of_bind_ok {x : Except ε α} {next : α → Except ε β} {b : β}
    (done : (x >>= next) = .ok b) : ∃ a, x = .ok a ∧ next a = .ok b := by
  cases x with
  | error e => cases done
  | ok a => exact ⟨a, rfl, done⟩

theorem exists_of_map_ok {x : Except ε α} {next : α → β} {b : β}
    (done : x.map next = .ok b) : ∃ a, x = .ok a ∧ next a = b := by
  cases x with
  | error e => cases done
  | ok a => exact ⟨a, rfl, Except.ok.inj done⟩

theorem map_eq_ok_iff {x : Except ε α} {next : α → β} {b : β} :
    x.map next = .ok b ↔ ∃ a, x = .ok a ∧ next a = b := by
  constructor
  · exact exists_of_map_ok
  · rintro ⟨a, rfl, rfl⟩
    rfl

theorem mapError_eq_ok_iff {ε' : Type} {x : Except ε α} {next : ε → ε'} {a : α} :
    x.mapError next = .ok a ↔ x = .ok a := by
  cases x with
  | error e => exact iff_of_false nofun nofun
  | ok b => simp only [Except.mapError, Except.ok.injEq]

theorem exists_bind_eq_error {x : Except ε α} {next : α → Except ε β}
    (refused : (∃ error, x = .error error) ∨ ∀ a, x = .ok a → ∃ error, next a = .error error) :
    ∃ error, x >>= next = .error error := by
  cases x with
  | error error => exact ⟨error, rfl⟩
  | ok a =>
    rcases refused with ⟨error, failed⟩ | later
    · cases failed
    · exact later a rfl

theorem exists_map_eq_error {x : Except ε α} (refused : ∃ error, x = .error error)
    (f : α → β) : ∃ error, x.map f = .error error := by
  obtain ⟨error, rfl⟩ := refused
  exact ⟨error, rfl⟩

/-! ## Lists -/

/-- A list is read item by item. -/
theorem mapM_eq_ok_iff {next : α → Except ε β} {list : List α} {results : List β} :
    list.mapM next = .ok results
      ↔ List.Forall₂ (fun item result => next item = .ok result) list results := by
  constructor
  · intro done
    induction list generalizing results with
    | nil =>
      cases done
      exact .nil
    | cons first rest ih =>
      rw [List.mapM_cons] at done
      obtain ⟨result, read, done⟩ := exists_of_bind_ok done
      obtain ⟨more, others, same⟩ := exists_of_bind_ok done
      cases same
      exact .cons read (ih others)
  · intro each
    induction each with
    | nil => rfl
    | cons read _ ih =>
      rw [List.mapM_cons, read, ih]
      rfl

theorem mapM_cons_eq_error_iff {next : α → Except ε β} {first : α} {rest : List α} {e : ε} :
    (first :: rest).mapM next = .error e
      ↔ next first = .error e ∨ (∃ b, next first = .ok b) ∧ rest.mapM next = .error e := by
  rw [List.mapM_cons]
  cases next first with
  | error other => simp [bind, Except.bind]
  | ok b => cases rest.mapM next <;> simp [bind, Except.bind, pure, Except.pure]

/-- A list is refused for its first item that is refused. -/
theorem mapM_eq_error_iff {next : α → Except ε β} {list : List α} {e : ε} :
    list.mapM next = .error e
      ↔ ∃ before a after, list = before ++ a :: after ∧ (∀ one ∈ before, ∃ b, next one = .ok b)
        ∧ next a = .error e := by
  induction list with
  | nil =>
    refine iff_of_false (fun done => nomatch done) ?_
    rintro ⟨before, a, after, split, -⟩
    cases before <;> cases split
  | cons first rest ih =>
    rw [mapM_cons_eq_error_iff, ih]
    constructor
    · rintro (refused | ⟨accepted, before, a, after, rfl, earlier, refused⟩)
      · exact ⟨[], first, rest, rfl, List.forall_mem_nil _, refused⟩
      · exact ⟨first :: before, a, after, rfl, List.forall_mem_cons.mpr ⟨accepted, earlier⟩,
          refused⟩
    · rintro ⟨before, a, after, split, earlier, refused⟩
      cases before with
      | nil =>
        obtain ⟨rfl, rfl⟩ := List.cons.inj split
        exact .inl refused
      | cons one before =>
        obtain ⟨rfl, rfl⟩ := List.cons.inj split
        obtain ⟨accepted, earlier⟩ := List.forall_mem_cons.mp earlier
        exact .inr ⟨accepted, before, a, after, rfl, earlier, refused⟩

theorem exists_mapM_eq_ok_iff {next : α → Except ε β} {list : List α} :
    (∃ results, list.mapM next = .ok results) ↔ ∀ item ∈ list, ∃ result, next item = .ok result := by
  induction list with
  | nil => simp [pure, Except.pure]
  | cons first rest ih =>
    rw [List.forall_mem_cons, ← ih, List.mapM_cons]
    cases next first with
    | error e => simp [bind, Except.bind]
    | ok result => cases rest.mapM next <;> simp [bind, Except.bind, pure, Except.pure]

theorem exists_mapM_eq_error {next : α → Except ε β} {list : List α} {item : α}
    (listed : item ∈ list) (refused : ∃ error, next item = .error error) :
    ∃ error, list.mapM next = .error error := by
  cases done : list.mapM next with
  | error error => exact ⟨error, rfl⟩
  | ok results =>
    obtain ⟨result, accepted⟩ := exists_mapM_eq_ok_iff.mp ⟨results, done⟩ item listed
    obtain ⟨error, refused⟩ := refused
    cases refused.symm.trans accepted

end DeclarationDocs.Json
