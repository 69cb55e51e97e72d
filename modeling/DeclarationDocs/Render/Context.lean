import DeclarationDocs.Config
import DeclarationDocs.Store

/-!
# Rendering contexts

What rendering may look up: references for precise identifiers, entities for references, and the
settings. The two look-ups may be answered by different stores.
-/

namespace DeclarationDocs

/-- The look-ups and settings of a rendering pass. -/
structure Context where
  /-- The reference of the entity with a precise identifier. -/
  resolve? : String → Option Reference
  /-- The entity with a reference. -/
  entity : Reference → Except StoreError Node
  config : Config

namespace Context

/-- The context in which one store resolves identifiers and another looks up entities. -/
def ofStores (index entities : Store) (config : Config) : Context :=
  ⟨index.resolve?, entities.entity, config⟩

end Context

end DeclarationDocs
