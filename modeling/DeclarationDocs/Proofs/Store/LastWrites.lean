import Mathlib.Data.List.Dedup
import Mathlib.Data.List.Induction
import DeclarationDocs.Proofs.Catalog
import DeclarationDocs.Proofs.Text.ByteOrder
import DeclarationDocs.Store

/-!
# Stores hold the last writes

A store is what its history says. Each look-up is answered by the last operation that has an answer
to it: under a reference stands the node inserted last with it, and a precise identifier leads where
the last insertion of a symbol with it, or its last registration, points.

Main statement: `Store.afterHistory_holdsLastWrites`.
-/

namespace DeclarationDocs.Store

namespace Operation

/-- The node that an operation stores under a reference. -/
def nodeFor? (reference : Reference) : Operation → Option Node
  | .insert node => if node.reference = reference then some node else none
  | .register .. => none

/-- The reference to which an operation makes a precise identifier lead. -/
def target? (preciseIdentifier : String) : Operation → Option Reference
  | .insert (.symbol symbol) =>
    if symbol.preciseIdentifier = some preciseIdentifier then some symbol.reference else none
  | .insert (.article _) => none
  | .register given reference => if given = preciseIdentifier then some reference else none

theorem nodeFor?_eq (reference : Reference) (operation : Operation) :
    nodeFor? reference operation = operation.node?.filter (·.reference = reference) := by
  cases operation with
  | register given target => rfl
  | insert node =>
    by_cases same : node.reference = reference <;> simp [nodeFor?, node?, Option.filter, same]

theorem target?_eq (preciseIdentifier : String) (operation : Operation) :
    target? preciseIdentifier operation
      = (operation.indexEntry?.filter (·.preciseIdentifier = preciseIdentifier)).map
          IndexEntry.reference := by
  cases operation with
  | register given reference =>
    by_cases same : given = preciseIdentifier <;> simp [target?, indexEntry?, Option.filter, same]
  | insert node =>
    cases node with
    | article page => rfl
    | symbol symbol =>
      cases carried : symbol.preciseIdentifier with
      | none => simp [target?, indexEntry?, Node.preciseIdentifier?, Node.symbol?, carried]
      | some given =>
        by_cases same : given = preciseIdentifier <;>
          simp [target?, indexEntry?, Node.preciseIdentifier?, Node.symbol?, Node.reference,
            carried, Option.filter, same]

end Operation

/-! ## Look-ups after a history -/

/-- What the last operation with an answer says. -/
def lastAnswer? {α : Type} (answer? : Operation → Option α) (history : List Operation) : Option α :=
  (history.filterMap answer?).getLast?

/-- The nodes inserted in a history, in order. -/
def inserted (history : List Operation) : List Node := history.filterMap Operation.node?

theorem lastAnswer?_append_singleton {α : Type} (answer? : Operation → Option α)
    (history : List Operation) (operation : Operation) :
    lastAnswer? answer? (history ++ [operation])
      = (answer? operation).or (lastAnswer? answer? history) := by
  unfold lastAnswer?
  rw [List.filterMap_append, List.getLast?_append]
  cases answered : answer? operation <;> simp [answered]

theorem afterHistory_append_singleton (history : List Operation) (operation : Operation) :
    afterHistory (history ++ [operation]) = (afterHistory history).apply operation := by
  unfold afterHistory
  rw [List.foldl_append]
  rfl

theorem ofNodes_eq_afterHistory (nodes : List Node) :
    ofNodes nodes = afterHistory (nodes.map .insert) := by
  unfold ofNodes afterHistory
  rw [List.foldl_map]
  rfl

/-- A look-up that each operation answers, or leaves to the operations before it, is answered by the
last operation that has an answer. -/
theorem lookUp_afterHistory {α : Type} (lookUp : Store → Option α)
    {answer? : Operation → Option α} (blank : lookUp empty = none)
    (step : ∀ store operation, lookUp (store.apply operation)
      = (answer? operation).or (lookUp store)) (history : List Operation) :
    lookUp (afterHistory history) = lastAnswer? answer? history := by
  induction history using List.reverseRecOn with
  | nil => exact blank
  | append_singleton history operation ih =>
    rw [afterHistory_append_singleton, lastAnswer?_append_singleton, step, ih]

theorem node?_afterHistory (history : List Operation) (reference : Reference) :
    (afterHistory history).node? reference
      = lastAnswer? (Operation.nodeFor? reference) history := by
  refine lookUp_afterHistory (node? · reference) rfl (fun store operation => ?_) history
  rw [Operation.nodeFor?_eq]
  exact node?_apply store operation reference

theorem resolve?_afterHistory (history : List Operation) (preciseIdentifier : String) :
    (afterHistory history).resolve? preciseIdentifier
      = lastAnswer? (Operation.target? preciseIdentifier) history := by
  refine lookUp_afterHistory (resolve? · preciseIdentifier) rfl
    (fun store operation => ?_) history
  rw [Operation.target?_eq]
  exact resolve?_apply store operation preciseIdentifier

/-! ## What a store holds -/

theorem lastAnswer?_eq_none_iff {α : Type} {answer? : Operation → Option α}
    {history : List Operation} :
    lastAnswer? answer? history = none ↔ ∀ operation ∈ history, answer? operation = none := by
  rw [lastAnswer?, List.getLast?_eq_none_iff, List.filterMap_eq_nil_iff]

/-- The references under which a store holds nodes are those of the inserted nodes. -/
theorem mem_references_afterHistory (history : List Operation) (reference : Reference) :
    reference ∈ (afterHistory history).nodes.entries.map Node.reference
      ↔ reference ∈ (inserted history).map Node.reference := by
  rw [Catalog.mem_keys_iff, List.mem_map]
  show ((afterHistory history).node? reference).isSome ↔ _
  rw [node?_afterHistory, Option.isSome_iff_ne_none, ne_eq, lastAnswer?_eq_none_iff]
  constructor
  · intro answered
    by_contra missing
    refine answered fun operation member => ?_
    cases operation with
    | register given target => rfl
    | insert node =>
      have listed : node ∈ inserted history := List.mem_filterMap.mpr ⟨_, member, rfl⟩
      exact if_neg fun same => missing ⟨node, listed, same⟩
  · rintro ⟨node, listed, rfl⟩ silent
    obtain ⟨operation, member, inserts⟩ := List.mem_filterMap.mp listed
    cases operation with
    | register given target => cases inserts
    | insert other =>
      obtain rfl : other = node := Option.some.inj inserts
      have answered := silent _ member
      rw [Operation.nodeFor?, if_pos rfl] at answered
      cases answered

theorem size_afterHistory (history : List Operation) :
    (afterHistory history).size = ((inserted history).map Node.reference).dedup.length := by
  have same : ((afterHistory history).nodes.entries.map Node.reference).Perm
      ((inserted history).map Node.reference).dedup := by
    refine (List.perm_ext_iff_of_nodup (Catalog.nodup_keys _) (List.nodup_dedup _)).mpr ?_
    intro reference
    rw [List.mem_dedup, mem_references_afterHistory]
  rw [← same.length_eq, List.length_map]
  rfl

theorem mem_symbols_iff (store : Store) (symbol : Symbol) :
    symbol ∈ store.symbols ↔ store.node? symbol.reference = some (.symbol symbol) := by
  unfold symbols
  rw [List.mem_filterMap]
  constructor
  · rintro ⟨node, member, kind⟩
    cases node with
    | article page => cases kind
    | symbol documented =>
      obtain rfl : documented = symbol := Option.some.inj kind
      exact Catalog.find?_eq_some_of_mem member
  · intro stored
    exact ⟨.symbol symbol, Catalog.mem_of_find? stored, rfl⟩

theorem symbols_ascending (store : Store) :
    store.symbols.Pairwise fun one other => one.reference < other.reference := by
  refine store.nodes.ascending.filterMap Node.symbol? ?_
  rintro (one | page) (other | page) less symbol kind symbol' kind'
  case symbol.symbol =>
    obtain rfl := Option.some.inj kind
    obtain rfl := Option.some.inj kind'
    exact less
  case symbol.article => cases kind'
  all_goals cases kind

/-! ## The law of last writes -/

/-- A store answers as a history says. -/
structure HoldsLastWrites (store : Store) (history : List Operation) : Prop where
  /-- Under a reference stands the node inserted last with it. -/
  node?_eq (reference : Reference) :
    store.node? reference = lastAnswer? (Operation.nodeFor? reference) history
  /-- A node stands under its own reference. -/
  reference_eq {reference : Reference} {node : Node} (stored : store.node? reference = some node) :
    node.reference = reference
  /-- An entity is the node under its reference; without one it is not found. -/
  entity_eq (reference : Reference) :
    store.entity reference = match lastAnswer? (Operation.nodeFor? reference) history with
      | some node => .ok node
      | none => .error (.notFound reference)
  /-- A further insertion hands back what stood under the reference, and only where nothing stood
  does the store grow, by one node. -/
  exchange_eq (node : Node) :
    store.exchange node = (store.node? node.reference, afterHistory (history ++ [.insert node]))
      ∧ (store.exchange node).2.size
        = store.size + if (store.exchange node).1.isNone then 1 else 0
  /-- The nodes are as many as the references with which nodes were inserted. -/
  size_eq : store.size = ((inserted history).map Node.reference).dedup.length
  /-- The symbols are those among the nodes that stand. -/
  mem_symbols (symbol : Symbol) : symbol ∈ store.symbols
    ↔ lastAnswer? (Operation.nodeFor? symbol.reference) history = some (.symbol symbol)
  /-- The symbols come in the order of the bytes of their references. -/
  symbols_ascend : store.symbols.Pairwise fun one other =>
    Text.bytes one.reference.text < Text.bytes other.reference.text
  /-- A precise identifier leads where the last operation on it points. -/
  resolve?_eq (preciseIdentifier : String) :
    store.resolve? preciseIdentifier = lastAnswer? (Operation.target? preciseIdentifier) history
  /-- A precise identifier leads nowhere when no operation is on it. -/
  resolve?_eq_none (preciseIdentifier : String) : store.resolve? preciseIdentifier = none
    ↔ ∀ operation ∈ history, operation.target? preciseIdentifier = none

/-- After every history the store holds the last writes, and a store made from a list of nodes is
the one after inserting them in order. -/
theorem afterHistory_holdsLastWrites :
    (∀ history, (afterHistory history).HoldsLastWrites history)
      ∧ ∀ nodes, ofNodes nodes = afterHistory (nodes.map .insert) := by
  refine ⟨fun history => ?_, ofNodes_eq_afterHistory⟩
  have found := node?_afterHistory history
  have resolved := resolve?_afterHistory history
  exact
    { node?_eq := found
      reference_eq := reference_of_node?
      entity_eq := fun reference => by rw [← found]; rfl
      exchange_eq := fun node => by
        constructor
        · rw [afterHistory_append_singleton]
          exact Prod.ext (Catalog.replaced?_eq_find? _ node) rfl
        · exact size_exchange _ node
      size_eq := size_afterHistory history
      mem_symbols := fun symbol => by rw [mem_symbols_iff, found]
      symbols_ascend := (symbols_ascending _).imp (Text.lt_iff_bytes_lt _ _).mp
      resolve?_eq := resolved
      resolve?_eq_none := fun preciseIdentifier => by rw [resolved, lastAnswer?_eq_none_iff] }

/-- A registration takes an identifier over from a symbol, and a later symbol takes it back. -/
example :
    let symbol reference := (Symbol.bare ⟨reference⟩ .swift).withPreciseIdentifier "s:x"
    let history := [.insert (.symbol (symbol "a")), .register "s:x" ⟨"c"⟩]
    (afterHistory history).resolve? "s:x" = some ⟨"c"⟩
      ∧ (afterHistory (history ++ [.insert (.symbol (symbol "b"))])).resolve? "s:x" = some ⟨"b"⟩ :=
  ⟨rfl, rfl⟩

end DeclarationDocs.Store
