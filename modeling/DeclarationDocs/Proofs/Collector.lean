import Mathlib.Data.List.Perm.Basic
import DeclarationDocs.Collector

/-!
# Merged collectors

Merging collectors one after the other joins their reports in that order. Which references a
collector has seen does not depend on the order of its reports.
-/

namespace DeclarationDocs

section FirstSeen

variable {α : Type} [DecidableEq α]

/-- The new entries of a list are those that were not seen before. -/
theorem mem_firstSeen {seen list : List α} {a : α} :
    a ∈ firstSeen seen list ↔ a ∈ list ∧ a ∉ seen := by
  induction list generalizing seen with
  | nil => simp [firstSeen]
  | cons b rest ih =>
    unfold firstSeen
    by_cases old : b ∈ seen
    · rw [if_pos old, ih, List.mem_cons]
      constructor
      · rintro ⟨member, new⟩
        exact ⟨.inr member, new⟩
      · rintro ⟨rfl | member, new⟩
        · exact absurd old new
        · exact ⟨member, new⟩
    · rw [if_neg old, List.mem_cons, ih, List.mem_cons, List.mem_cons]
      by_cases same : a = b
      · simp [same, old]
      · simp [same]

theorem nodup_firstSeen (seen list : List α) : (firstSeen seen list).Nodup := by
  induction list generalizing seen with
  | nil => exact List.nodup_nil
  | cons b rest ih =>
    unfold firstSeen
    split
    · exact ih seen
    · -- the rest is searched with the entry among those seen
      refine List.nodup_cons.mpr ⟨fun member => ?_, ih (b :: seen)⟩
      exact (mem_firstSeen.mp member).2 List.mem_cons_self

end FirstSeen

namespace Collector

theorem ext {one other : Collector} (same : one.references = other.references) : one = other := by
  cases one; cases other; cases same; rfl

theorem mem_unique {collector : Collector} {reference : Reference} :
    reference ∈ collector.unique ↔ reference ∈ collector.references := by
  unfold unique
  rw [mem_firstSeen]
  exact and_iff_left List.not_mem_nil

theorem nodup_unique (collector : Collector) : collector.unique.Nodup :=
  nodup_firstSeen [] collector.references

/-- Collectors with the same reports, in whatever order, have seen the same references. -/
theorem unique_perm {one other : Collector} (same : one.references.Perm other.references) :
    one.unique.Perm other.unique := by
  refine (List.perm_ext_iff_of_nodup one.nodup_unique other.nodup_unique).mpr fun reference => ?_
  rw [mem_unique, mem_unique, same.mem_iff]

/-- Merge collectors into one, each behind those before it. -/
def mergeAll (collector : Collector) (others : List Collector) : Collector :=
  others.foldl merge collector

theorem references_mergeAll (collector : Collector) (others : List Collector) :
    (collector.mergeAll others).references
      = collector.references ++ others.flatMap Collector.references := by
  unfold mergeAll
  induction others generalizing collector with
  | nil => simp
  | cons other rest ih =>
    rw [List.foldl_cons, ih, List.flatMap_cons, ← List.append_assoc]
    rfl

/-- In whatever order collectors are merged, the reports are the same up to their order. -/
theorem references_mergeAll_perm (collector : Collector) {others shuffled : List Collector}
    (reordered : others.Perm shuffled) :
    (collector.mergeAll others).references.Perm (collector.mergeAll shuffled).references := by
  rw [references_mergeAll, references_mergeAll]
  exact List.Perm.append_left _ (reordered.flatMap_right _)

end Collector

end DeclarationDocs
