import DeclarationDocs.Fragment
import DeclarationDocs.Platform
import DeclarationDocs.Reference

/-!
# Rendered sections

What rendering produces: the declarations section of a page. It has an entry for each platform
declaration, and an entry shows its tokens and, for an overloaded symbol, the block of its siblings.
-/

namespace DeclarationDocs

/-- A rendered fragment, linked to the entity it names. -/
structure LinkedToken where
  kind : FragmentKind
  text : String
  identifier : Option Reference
deriving DecidableEq, Inhabited

/-- The declaration of one sibling. -/
structure SiblingRow where
  identifier : Reference
  tokens : List LinkedToken
deriving DecidableEq, Inhabited

/-- The declarations of the members of an overload group. -/
structure SiblingBlock where
  rows : List SiblingRow
  /-- The place of the symbol itself in its group. -/
  displayIndex : UInt64
deriving DecidableEq, Inhabited

/-- One declaration of a symbol. -/
structure Entry where
  languages : List String
  platforms : List (Option Platform)
  tokens : List LinkedToken
  siblings : Option SiblingBlock
deriving DecidableEq, Inhabited

/-- The declarations section of a page. -/
structure Section where
  entries : List Entry
deriving DecidableEq, Inhabited

namespace Section

def empty : Section := ⟨[]⟩

def isEmpty (contents : Section) : Bool := contents.entries.isEmpty

end Section

end DeclarationDocs
