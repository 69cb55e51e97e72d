import DeclarationDocs.Trait

/-!
# Look-ups determine catalogs

A catalog is known by what its look-ups answer, and so is a trait map. Taking out an entry changes
the answer for its key alone.
-/

namespace DeclarationDocs

namespace Catalog

variable {α κ : Type} [KeyOrder κ] {key : α → κ}

theorem nodup_entries (catalog : Catalog key) : catalog.entries.Nodup := by
  refine catalog.ascending.imp ?_
  rintro a b less rfl
  exact KeyOrder.lt_irrefl _ less

theorem nodup_keys (catalog : Catalog key) : (catalog.entries.map key).Nodup :=
  List.pairwise_map.mpr (catalog.ascending.imp KeyOrder.ne_of_lt)

variable [DecidableEq κ]

/-- The keys of a catalog are those that lead to an entry. -/
theorem mem_keys_iff {catalog : Catalog key} {wanted : κ} :
    wanted ∈ catalog.entries.map key ↔ (catalog.find? wanted).isSome := by
  rw [List.mem_map]
  constructor
  · rintro ⟨entry, member, rfl⟩
    rw [find?_eq_some_of_mem member]
    rfl
  · intro found
    obtain ⟨entry, found⟩ := Option.isSome_iff_exists.mp found
    exact ⟨entry, mem_of_find? found, key_eq_of_find? found⟩

/-- Two catalogs in which every look-up has the same answer are equal. -/
theorem ext_find? {a b : Catalog key} (same : ∀ wanted, a.find? wanted = b.find? wanted) :
    a = b := by
  have members : ∀ entry, entry ∈ a.entries ↔ entry ∈ b.entries := by
    intro entry
    rw [mem_entries_iff, mem_entries_iff, same]
  have perm : a.entries.Perm b.entries :=
    (List.perm_ext_iff_of_nodup a.nodup_entries b.nodup_entries).mpr members
  refine ext (perm.eq_of_pairwise ?_ a.ascending b.ascending)
  intro left right _ _ less greater
  exact absurd (KeyOrder.lt_trans less greater) (KeyOrder.lt_irrefl _)

/-- Take out the entry of a key. -/
def without (catalog : Catalog key) (unwanted : κ) : Catalog key :=
  ⟨catalog.entries.filter fun entry => key entry ≠ unwanted, catalog.ascending.filter _⟩

theorem find?_without (catalog : Catalog key) (unwanted wanted : κ) :
    (catalog.without unwanted).find? wanted
      = if wanted = unwanted then none else catalog.find? wanted := by
  show (catalog.entries.filter _).find? _ = _
  rw [List.find?_filter]
  split
  next gone =>
    refine List.find?_eq_none.mpr fun entry _ => ?_
    simp [gone]
  next kept =>
    refine congrArg (catalog.entries.find? ·) (funext fun entry => ?_)
    by_cases found : key entry = wanted
    · simp [found, kept]
    · simp [found]

end Catalog

namespace TraitMap

variable {α : Type}

theorem get?_without (map : TraitMap α) (unwanted wanted : Trait) :
    TraitMap.get? (map.without unwanted) wanted
      = if wanted = unwanted then none else map.get? wanted := by
  rw [get?, Catalog.find?_without]
  split <;> rfl

theorem find?_eq_map_get? (map : TraitMap α) (trait : Trait) :
    map.find? trait = (map.get? trait).map (trait, ·) := by
  cases found : map.find? trait with
  | none => rw [get?, found]; rfl
  | some entry =>
    have same : entry.1 = trait := Catalog.key_eq_of_find? found
    rw [get?, found, ← same]
    rfl

/-- Two maps that store the same for every trait are equal. -/
theorem ext_get? {a b : TraitMap α} (same : ∀ trait, a.get? trait = b.get? trait) : a = b :=
  Catalog.ext_find? fun trait => by rw [find?_eq_map_get?, find?_eq_map_get?, same]

end TraitMap

end DeclarationDocs
