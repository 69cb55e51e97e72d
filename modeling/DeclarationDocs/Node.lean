import DeclarationDocs.Symbol

/-!
# Nodes

What is documented under a reference: a symbol, or an article of prose.
-/

namespace DeclarationDocs

/-- A page of prose. -/
structure Article where
  reference : Reference
  title : String
deriving DecidableEq, Inhabited

/-- A documented entity. -/
inductive Node where
  | symbol (documented : Symbol)
  | article (page : Article)
deriving DecidableEq, Inhabited

namespace Node

def reference : Node → Reference
  | .symbol documented => documented.reference
  | .article page => page.reference

def symbol? : Node → Option Symbol
  | .symbol documented => some documented
  | .article _ => none

/-- The precise identifier under which the entity is indexed. -/
def preciseIdentifier? (node : Node) : Option String :=
  node.symbol?.bind Symbol.preciseIdentifier

end Node

end DeclarationDocs
