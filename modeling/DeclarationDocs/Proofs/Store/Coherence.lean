import Mathlib.Data.List.Basic
import DeclarationDocs.Proofs.Store.LastWrites

/-!
# Coherence of the identifier index

The identifier index should lead from a precise identifier to the symbol that carries it. It does as
long as no symbol is overwritten that was the last one inserted with its identifier. When one is,
its index entry stays behind and leads to the node that took its place.

Main statement: `Store.isCoherent_ofNodes_iff` says for which insertions the index is coherent.
-/

namespace DeclarationDocs

/-- The last entry of a list with a property stands before none that has it. -/
theorem getLast?_filter_eq_some_iff {α : Type} {p : α → Bool} {list : List α} {a : α} :
    (list.filter p).getLast? = some a
      ↔ p a = true
        ∧ ∃ before after, list = before ++ a :: after ∧ ∀ later ∈ after, p later = false := by
  rw [List.getLast?_filter, List.find?_eq_some_iff_append]
  refine and_congr_right fun _ => ?_
  constructor
  · rintro ⟨after, before, split, others⟩
    refine ⟨before.reverse, after.reverse, ?_, fun later member => ?_⟩
    · rw [← List.reverse_reverse list, split]
      simp
    · simpa using others later (List.mem_reverse.mp member)
  · rintro ⟨before, after, rfl, others⟩
    refine ⟨after.reverse, before.reverse, by simp, fun later member => ?_⟩
    simpa using others later (List.mem_reverse.mp member)

namespace Store

/-- Every precise identifier in the index leads to a symbol of the store that carries it. -/
def IsCoherent (store : Store) : Prop :=
  ∀ preciseIdentifier reference, store.resolve? preciseIdentifier = some reference →
    ∃ symbol : Symbol, store.node? reference = some (.symbol symbol)
      ∧ symbol.preciseIdentifier = some preciseIdentifier

/-! ## Look-ups after insertions -/

theorem node?_ofNodes (nodes : List Node) (reference : Reference) :
    (ofNodes nodes).node? reference = (nodes.filter (·.reference = reference)).getLast? := by
  rw [ofNodes_eq_afterHistory, node?_afterHistory, lastAnswer?, List.filterMap_map,
    ← List.filterMap_eq_filter]
  refine congrArg (List.getLast? <| nodes.filterMap ·) (funext fun node => ?_)
  simp [Operation.nodeFor?, Option.guard]

theorem resolve?_ofNodes (nodes : List Node) (preciseIdentifier : String) :
    (ofNodes nodes).resolve? preciseIdentifier
      = (nodes.filter (·.preciseIdentifier? = some preciseIdentifier)).getLast?.map
          Node.reference := by
  rw [ofNodes_eq_afterHistory, resolve?_afterHistory, lastAnswer?, List.filterMap_map,
    ← List.getLast?_map, ← List.filterMap_eq_filter, List.map_filterMap]
  refine congrArg (List.getLast? <| nodes.filterMap ·) (funext fun node => ?_)
  cases node with
  | article page => rfl
  | symbol symbol =>
    by_cases carried : symbol.preciseIdentifier = some preciseIdentifier <;>
      simp [Operation.target?, Option.guard, Node.preciseIdentifier?, Node.symbol?, Node.reference,
        carried]

/-! ## Which insertions keep the index coherent -/

/-- The index is coherent exactly when the last node with an identifier is never overwritten. -/
theorem isCoherent_ofNodes_iff (nodes : List Node) :
    (ofNodes nodes).IsCoherent
      ↔ ∀ before node after preciseIdentifier, nodes = before ++ node :: after →
          node.preciseIdentifier? = some preciseIdentifier →
          (∀ later ∈ after, later.preciseIdentifier? ≠ some preciseIdentifier) →
            ∀ later ∈ after, later.reference ≠ node.reference := by
  constructor
  · intro coherent before node after preciseIdentifier split carries last later member same
    have resolved : (ofNodes nodes).resolve? preciseIdentifier = some node.reference := by
      rw [resolve?_ofNodes, getLast?_filter_eq_some_iff.mpr
        ⟨by simpa using carries, before, after, split, by simpa using last⟩]
      rfl
    obtain ⟨symbol, stored, carried⟩ := coherent preciseIdentifier node.reference resolved
    -- what stands under the reference was inserted behind the node, but nothing there carries the
    -- identifier
    have behind : after.filter (·.reference = node.reference) ≠ [] :=
      List.ne_nil_of_mem (List.mem_filter.mpr ⟨member, by simpa using same⟩)
    rw [node?_ofNodes, split, List.append_cons, List.filter_append,
      List.getLast?_append_of_ne_nil _ behind] at stored
    have standing : .symbol symbol ∈ after :=
      (List.mem_filter.mp (List.mem_of_getLast? stored)).1
    exact last _ standing carried
  · intro kept preciseIdentifier reference resolved
    rw [resolve?_ofNodes, Option.map_eq_some_iff] at resolved
    obtain ⟨node, found, rfl⟩ := resolved
    obtain ⟨carries, before, after, split, last⟩ := getLast?_filter_eq_some_iff.mp found
    have carries : node.preciseIdentifier? = some preciseIdentifier := by simpa using carries
    have stays := kept before node after preciseIdentifier split carries (by simpa using last)
    have stored : (ofNodes nodes).node? node.reference = some node := by
      rw [node?_ofNodes]
      exact getLast?_filter_eq_some_iff.mpr ⟨by simp, before, after, split, by simpa using stays⟩
    cases node with
    | symbol symbol => exact ⟨symbol, stored, carries⟩
    | article page => cases carries

/-- A symbol that takes the place of one with another identifier. -/
def renamed : List Node :=
  let bar := Symbol.bare ⟨"doc://Kit/Bar"⟩ .swift
  [.symbol (bar.withPreciseIdentifier "s:old"),
    .symbol ((bar.withPreciseIdentifier "s:new").withTitle "Bar")]

/-- The identifier of the overwritten symbol leads to the symbol that took its place. -/
theorem overwritten_identifier_resolves :
    (ofNodes renamed).resolve? "s:old" = some ⟨"doc://Kit/Bar"⟩
      ∧ ((ofNodes renamed).symbol? ⟨"doc://Kit/Bar"⟩).bind Symbol.preciseIdentifier = some "s:new"
      ∧ ¬ ∀ nodes, (ofNodes nodes).IsCoherent := by
  refine ⟨rfl, rfl, fun coherent => ?_⟩
  obtain ⟨symbol, stored, carried⟩ := coherent renamed "s:old" ⟨"doc://Kit/Bar"⟩ rfl
  obtain rfl := Node.symbol.inj (Option.some.inj stored)
  exact absurd carried (by decide)

end Store

end DeclarationDocs
