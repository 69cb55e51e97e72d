import DeclarationDocs.Run

/-!
# Collectors

A collector keeps every reported reference in the order of arrival. Work that is split up gives each
part a collector of its own and merges them afterwards.
-/

namespace DeclarationDocs

/-- The entries of a list that are neither among those seen before nor repeats. -/
def firstSeen {α : Type} [DecidableEq α] (seen : List α) : List α → List α
  | [] => []
  | a :: rest => if a ∈ seen then firstSeen seen rest else a :: firstSeen (a :: seen) rest

/-- All reported references, repeats included. -/
structure Collector where
  references : List Reference
deriving DecidableEq, Inhabited

namespace Collector

def empty : Collector := ⟨[]⟩

def size (collector : Collector) : Nat := collector.references.length

def isEmpty (collector : Collector) : Bool := collector.references.isEmpty

def report (collector : Collector) (reference : Reference) : Collector :=
  ⟨collector.references ++ [reference]⟩

/-- Append the reports of another collector. -/
def merge (collector other : Collector) : Collector :=
  ⟨collector.references ++ other.references⟩

/-- The collector after a run, whether or not the run ended with a fault. -/
def collect {α : Type} (collector : Collector) (run : Run α) : Collector :=
  run.reports.foldl report collector

/-- The reported references without repeats, in the order in which they were first seen. -/
def unique (collector : Collector) : List Reference := firstSeen [] collector.references

theorem references_foldl_report (collector : Collector) (reported : List Reference) :
    (reported.foldl report collector).references = collector.references ++ reported := by
  induction reported generalizing collector with
  | nil => simp
  | cons reference rest ih => simp [ih, report]

/-- A run's reports come behind those that were there before. -/
theorem references_collect {α : Type} (collector : Collector) (run : Run α) :
    (collector.collect run).references = collector.references ++ run.reports :=
  collector.references_foldl_report run.reports

end Collector

end DeclarationDocs
