import DeclarationDocs.Codecs.Node

/-!
# Stores

A store keeps the documented nodes by reference and an index from precise identifiers to references.
A node replaces the one with its reference. The index entry of a precise identifier is set by the
last symbol inserted with it or by the last registration, and it is never taken back.

Main statements: `Store.node?_apply` and `Store.resolve?_apply` say what a look-up answers after one
operation.
-/

namespace DeclarationDocs

open Json

/-- An entry of the identifier index. -/
structure IndexEntry where
  preciseIdentifier : String
  reference : Reference
deriving DecidableEq, Inhabited

/-- Documented nodes and the identifier index. -/
structure Store where
  nodes : Catalog Node.reference
  index : Catalog IndexEntry.preciseIdentifier
deriving DecidableEq, Inhabited

/-- Why a store cannot answer. -/
inductive StoreError where
  | notFound (reference : Reference)
  | unreadable (error : ReadError)
deriving DecidableEq, Inhabited

def StoreError.message : StoreError → String
  | .notFound reference => "entity not found: " ++ reference.text
  | .unreadable error => "invalid store json: " ++ error.message

namespace Store

def empty : Store := ⟨∅, ∅⟩

/-! ## Queries -/

def size (store : Store) : Nat := store.nodes.size

def isEmpty (store : Store) : Bool := store.nodes.isEmpty

def node? (store : Store) (reference : Reference) : Option Node := store.nodes.find? reference

def symbol? (store : Store) (reference : Reference) : Option Symbol :=
  (store.node? reference).bind Node.symbol?

def symbols (store : Store) : List Symbol := store.nodes.entries.filterMap Node.symbol?

/-- The node with a reference, or the complaint that there is none. -/
def entity (store : Store) (reference : Reference) : Except StoreError Node :=
  match store.node? reference with
  | some node => .ok node
  | none => .error (.notFound reference)

/-- The reference that the index has for a precise identifier. -/
def resolve? (store : Store) (preciseIdentifier : String) : Option Reference :=
  (store.index.find? preciseIdentifier).map IndexEntry.reference

/-! ## Changes -/

def register (store : Store) (preciseIdentifier : String) (reference : Reference) : Store :=
  { store with index := store.index.insert ⟨preciseIdentifier, reference⟩ }

/-- Add a node, or replace the one with its reference. A symbol with a precise identifier is
registered under it. -/
def insert (store : Store) (node : Node) : Store :=
  let stored := { store with nodes := store.nodes.insert node }
  match node.preciseIdentifier? with
  | some preciseIdentifier => stored.register preciseIdentifier node.reference
  | none => stored

/-- Insert a node, and hand back the one that it replaces. -/
def exchange (store : Store) (node : Node) : Option Node × Store :=
  (store.nodes.replaced? node, store.insert node)

def ofNodes (nodes : List Node) : Store := nodes.foldl insert empty

/-- The store that a document lists the nodes of; none of them is kept when one cannot be read. -/
def read (text : String) : Except StoreError Store :=
  match Node.listCodec.read text with
  | .ok nodes => .ok (ofNodes nodes)
  | .error error => .error (.unreadable error)

/-! ## Histories -/

/-- A change to a store. -/
inductive Operation where
  | insert (node : Node)
  | register (preciseIdentifier : String) (reference : Reference)

namespace Operation

def node? : Operation → Option Node
  | .insert node => some node
  | .register .. => none

def indexEntry? : Operation → Option IndexEntry
  | .insert node => node.preciseIdentifier?.map (⟨·, node.reference⟩)
  | .register preciseIdentifier reference => some ⟨preciseIdentifier, reference⟩

end Operation

def apply (store : Store) : Operation → Store
  | .insert node => store.insert node
  | .register preciseIdentifier reference => store.register preciseIdentifier reference

/-- The store after a sequence of changes to the empty one. -/
def afterHistory (history : List Operation) : Store := history.foldl apply empty

/-- A node is kept under its own reference. -/
theorem reference_of_node? {store : Store} {reference : Reference} {node : Node}
    (stored : store.node? reference = some node) : node.reference = reference :=
  Catalog.key_eq_of_find? stored

theorem symbol?_eq_some_iff {store : Store} {reference : Reference} {symbol : Symbol} :
    store.symbol? reference = some symbol ↔ store.node? reference = some (.symbol symbol) := by
  unfold symbol?
  cases store.node? reference with
  | none => simp
  | some node => cases node <;> simp [Node.symbol?]

theorem nodes_insert (store : Store) (node : Node) :
    (store.insert node).nodes = store.nodes.insert node := by
  unfold insert register
  split <;> rfl

/-- Only a node that replaces none makes the store larger. -/
theorem size_exchange (store : Store) (node : Node) :
    (store.exchange node).2.size
      = store.size + if (store.exchange node).1.isNone then 1 else 0 := by
  show (store.insert node).nodes.size = _
  rw [nodes_insert]
  exact Catalog.size_insert store.nodes node

/-- An inserted node stands under its own reference; under the others stands what stood there. -/
theorem node?_insert (store : Store) (node : Node) (reference : Reference) :
    (store.insert node).node? reference
      = if node.reference = reference then some node else store.node? reference := by
  simp only [node?, nodes_insert]
  exact Catalog.find?_insert store.nodes node reference

/-- The precise identifier of an inserted node leads to it, and the others lead where they led. -/
theorem resolve?_insert (store : Store) (node : Node) (preciseIdentifier : String) :
    (store.insert node).resolve? preciseIdentifier
      = if node.preciseIdentifier? = some preciseIdentifier then some node.reference
        else store.resolve? preciseIdentifier := by
  unfold insert
  cases node.preciseIdentifier? with
  | none => rfl
  | some given =>
    simp only [register, resolve?, Catalog.find?_insert]
    by_cases same : given = preciseIdentifier <;> simp [same]

/-- A change stores its node under the node's own reference and leaves the other nodes alone. -/
theorem node?_apply (store : Store) (operation : Operation) (reference : Reference) :
    (store.apply operation).node? reference
      = (operation.node?.filter (·.reference = reference)).or (store.node? reference) := by
  match operation with
  | .register .. => rfl
  | .insert node =>
    simp only [apply, node?_insert, Operation.node?]
    by_cases same : node.reference = reference <;> simp [same, Option.filter]

/-- A change sets the index entry it names and leaves the other entries alone. -/
theorem resolve?_apply (store : Store) (operation : Operation) (preciseIdentifier : String) :
    (store.apply operation).resolve? preciseIdentifier
      = ((operation.indexEntry?.filter (·.preciseIdentifier = preciseIdentifier)).map
          IndexEntry.reference).or (store.resolve? preciseIdentifier) := by
  match operation with
  | .register given reference =>
    simp only [apply, register, resolve?, Catalog.find?_insert, Operation.indexEntry?]
    by_cases same : given = preciseIdentifier <;> simp [same, Option.filter]
  | .insert node =>
    simp only [apply, resolve?_insert, Operation.indexEntry?]
    cases node.preciseIdentifier? with
    | none => rfl
    | some given => by_cases same : given = preciseIdentifier <;> simp [same, Option.filter]

end Store

end DeclarationDocs
