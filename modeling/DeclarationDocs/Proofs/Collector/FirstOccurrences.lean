import Mathlib.Data.List.Basic
import DeclarationDocs.Proofs.Collector

/-!
# First occurrences

A collector goes through its reports once and keeps a reference when it has not come before. What is
kept are the entries that are equal to none in front of them, wherever the search began. A collector
that takes over the reports of another one therefore adds, behind what it has kept, what only the
other one has seen.

Main statement: `Collector.unique_keeps_first_occurrences`.
-/

namespace DeclarationDocs

section FirstSeen

variable {α : Type} [DecidableEq α]

/-- The entries of a list that are equal to none in front of them. -/
def firstOccurrences (list : List α) : List α :=
  (list.zipIdx.filter fun (a, position) => a ∉ list.take position).map Prod.fst

/-- What is new after some entries have been seen are the first occurrences among the others. -/
theorem firstSeen_eq (seen list : List α) :
    firstSeen seen list
      = (list.zipIdx.filter fun (a, position) =>
          a ∉ seen ∧ a ∉ list.take position).map Prod.fst := by
  induction list generalizing seen with
  | nil => rfl
  | cons b rest ih =>
    -- behind the first entry all positions are one further on
    have behind : ((b :: rest).zipIdx.filter fun (a, position) =>
        a ∉ seen ∧ a ∉ (b :: rest).take position).map Prod.fst
        = (if b ∈ seen then [] else [b]) ++ (rest.zipIdx.filter fun (a, position) =>
            a ∉ seen ∧ a ∉ b :: rest.take position).map Prod.fst := by
      rw [List.zipIdx_cons, Nat.zero_add, List.zipIdx_succ]
      by_cases old : b ∈ seen
      · simp [old, List.filter_map, Function.comp_def]
      · simp [old, List.filter_map, Function.comp_def]
    rw [behind, firstSeen]
    by_cases old : b ∈ seen
    · rw [if_pos old, if_pos old, List.nil_append, ih]
      refine congrArg _ (List.filter_congr fun entry _ => ?_)
      have other : entry.1 ∉ seen → entry.1 ≠ b := fun new same => new (same ▸ old)
      simp only [List.mem_cons, not_or, decide_eq_decide]
      exact ⟨fun both => ⟨both.1, other both.1, both.2⟩, fun all => ⟨all.1, all.2.2⟩⟩
    · rw [if_neg old, if_neg old, List.singleton_append, ih]
      refine congrArg (b :: List.map _ ·) (List.filter_congr fun entry _ => ?_)
      simp only [List.mem_cons, not_or, decide_eq_decide]
      exact ⟨fun both => ⟨both.1.2, both.1.1, both.2⟩, fun all => ⟨⟨all.2.1, all.1⟩, all.2.2⟩⟩

theorem firstSeen_sublist (seen list : List α) : (firstSeen seen list).Sublist list := by
  induction list generalizing seen with
  | nil => exact .slnil
  | cons b rest ih =>
    unfold firstSeen
    split
    · exact (ih seen).cons b
    · exact (ih (b :: seen)).cons_cons b

/-- Of what is new after fewer entries have been seen, the part is left that none of the further
ones is. -/
theorem firstSeen_eq_filter {known seen : List α} (fewer : known ⊆ seen) (list : List α) :
    firstSeen seen list = (firstSeen known list).filter (· ∉ seen) := by
  induction list generalizing known seen with
  | nil => rfl
  | cons b rest ih =>
    by_cases before : b ∈ known
    · rw [firstSeen, if_pos (fewer before), firstSeen, if_pos before, ih fewer]
    · rw [firstSeen.eq_2 known, if_neg before]
      by_cases old : b ∈ seen
      · rw [firstSeen, if_pos old, List.filter_cons_of_neg (by simpa using old)]
        exact ih (List.cons_subset.mpr ⟨old, fewer⟩)
      · rw [firstSeen, if_neg old, List.filter_cons_of_pos (by simpa using old),
          ih (List.cons_subset_cons b fewer)]
        -- the first entry is kept already, so none of the others is equal to it
        refine congrArg (b :: ·) (List.filter_congr fun a member => ?_)
        have other : a ≠ b := fun same =>
          (mem_firstSeen.mp member).2 (List.mem_cons.mpr (.inl same))
        simp [other]

/-- A list adds to the new entries of the list in front of it what is new in itself and has come up
nowhere before. -/
theorem firstSeen_append (seen first second : List α) :
    firstSeen seen (first ++ second)
      = firstSeen seen first ++ (firstSeen [] second).filter (· ∉ first ++ seen) := by
  induction first generalizing seen with
  | nil => exact firstSeen_eq_filter (List.nil_subset seen) second
  | cons b rest ih =>
    rw [List.cons_append, firstSeen, firstSeen.eq_2 seen b rest]
    by_cases old : b ∈ seen
    · rw [if_pos old, if_pos old, ih]
      refine congrArg _ (List.filter_congr fun a _ => ?_)
      have seenAlready : a = b → a ∈ seen := fun same => same ▸ old
      simp only [List.cons_append, List.mem_cons, List.mem_append, decide_eq_decide]
      tauto
    · rw [if_neg old, if_neg old, ih, List.cons_append]
      refine congrArg (b :: _ ++ ·) (List.filter_congr fun a _ => ?_)
      simp only [List.cons_append, List.mem_cons, List.mem_append, decide_eq_decide]
      tauto

theorem firstSeen_of_nodup {seen list : List α} (distinct : list.Nodup)
    (new : ∀ a ∈ list, a ∉ seen) : firstSeen seen list = list := by
  induction list generalizing seen with
  | nil => rfl
  | cons b rest ih =>
    obtain ⟨fresh, distinct⟩ := List.nodup_cons.mp distinct
    obtain ⟨first, others⟩ := List.forall_mem_cons.mp new
    rw [firstSeen, if_neg first, ih distinct]
    intro a member
    rw [List.mem_cons, not_or]
    exact ⟨fun same => fresh (same ▸ member), others a member⟩

end FirstSeen

namespace Collector

theorem unique_eq_firstOccurrences (collector : Collector) :
    collector.unique = firstOccurrences collector.references := by
  rw [unique, firstSeen_eq, firstOccurrences]
  refine congrArg _ (List.filter_congr fun entry _ => ?_)
  simp

/-- A merged collector has kept what it kept before, and behind it what only the other one kept. -/
theorem unique_merge (collector other : Collector) :
    (collector.merge other).unique
      = collector.unique ++ other.unique.filter (· ∉ collector.references) := by
  have split := firstSeen_append [] collector.references other.references
  rwa [List.append_nil] at split

/-- A collector that is told nothing twice keeps all it is told. -/
theorem unique_foldl_report {reported : List Reference} (distinct : reported.Nodup) :
    (reported.foldl report empty).unique = reported := by
  rw [unique, references_foldl_report]
  exact firstSeen_of_nodup distinct fun _ _ => List.not_mem_nil

/-- A collector keeps the first occurrences among its reports: no reference twice, none that was not
reported, and nothing more when they are collected again. Merging appends the other collector's
reports, all of them and nothing else, so it is associative and an empty collector makes no
difference; what is kept is followed by what the other one has kept and this one has not seen. -/
theorem unique_keeps_first_occurrences :
    (∀ collector : Collector,
        collector.unique.Nodup
        ∧ (∀ reference, reference ∈ collector.unique ↔ reference ∈ collector.references)
        ∧ collector.unique.Sublist collector.references
        ∧ collector.unique = firstOccurrences collector.references
        ∧ (collector.unique.foldl report empty).unique = collector.unique)
      ∧ (∀ collector other : Collector,
          (collector.merge other).unique
            = collector.unique ++ other.unique.filter (· ∉ collector.references)
          ∧ (collector.merge other).references = collector.references ++ other.references
          ∧ ∀ reference, (collector.merge other).references.count reference
            = collector.references.count reference + other.references.count reference)
      ∧ (∀ first second third : Collector,
          (first.merge second).merge third = first.merge (second.merge third))
      ∧ ∀ collector : Collector,
          empty.merge collector = collector ∧ collector.merge empty = collector := by
  refine ⟨fun collector => ?_, fun collector other => ?_, fun first second third => ?_,
    fun collector => ?_⟩
  · have distinct := collector.nodup_unique
    exact ⟨distinct, fun _ => mem_unique, firstSeen_sublist [] collector.references,
      collector.unique_eq_firstOccurrences, unique_foldl_report distinct⟩
  · exact ⟨unique_merge collector other, rfl, fun reference => List.count_append⟩
  · exact ext (List.append_assoc _ _ _)
  · exact ⟨ext (List.nil_append _), ext (List.append_nil _)⟩

example : (Collector.mk [⟨"a"⟩, ⟨"b"⟩, ⟨"a"⟩]).unique = [⟨"a"⟩, ⟨"b"⟩]
    ∧ ((Collector.mk [⟨"b"⟩]).merge ⟨[⟨"a"⟩, ⟨"b"⟩, ⟨"a"⟩]⟩).unique = [⟨"b"⟩, ⟨"a"⟩] := by
  decide

end Collector

end DeclarationDocs
