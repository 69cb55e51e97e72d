import DeclarationDocs.Fragment
import DeclarationDocs.Trait
import DeclarationDocs.Platform
import DeclarationDocs.Reference

/-!
# Symbols

A symbol is a documented declaration. Per trait it has a list of platform declarations and, when it
is overloaded, the group of its overloads.
-/

namespace DeclarationDocs

/-- A declaration and the platforms to which it applies. -/
structure PlatformDeclaration where
  platforms : List (Option Platform)
  declaration : Declaration
deriving DecidableEq, Inhabited

/-- A group of overloads, as one of its members sees it. -/
structure OverloadGroup where
  /-- The members, in display order. -/
  references : List Reference
  /-- The place of this member in the group. -/
  displayIndex : UInt64
deriving DecidableEq, Inhabited

/-- A documented declaration. -/
structure Symbol where
  reference : Reference
  preciseIdentifier : Option String
  title : String
  /-- The language that stands in for a trait without one. -/
  sourceLanguage : SourceLanguage
  declarationVariants : TraitMap (List PlatformDeclaration)
  overloadsVariants : TraitMap OverloadGroup
deriving DecidableEq, Inhabited

namespace Symbol

/-! ## Building -/

/-- A symbol of which only the name and the language are known. -/
def bare (reference : Reference) (sourceLanguage : SourceLanguage) : Symbol :=
  ⟨reference, none, "", sourceLanguage, ∅, ∅⟩

def withPreciseIdentifier (symbol : Symbol) (preciseIdentifier : String) : Symbol :=
  { symbol with preciseIdentifier := some preciseIdentifier }

def withTitle (symbol : Symbol) (title : String) : Symbol := { symbol with title }

/-- The platform declarations of one trait, none when the symbol lacks the trait. -/
def declarations (symbol : Symbol) (trait : Trait) : List PlatformDeclaration :=
  (symbol.declarationVariants.get? trait).getD []

def withDeclarations (symbol : Symbol) (trait : Trait) (pairs : List PlatformDeclaration) :
    Symbol :=
  { symbol with declarationVariants := symbol.declarationVariants.put trait pairs }

def withDeclaration (symbol : Symbol) (trait : Trait) (pair : PlatformDeclaration) : Symbol :=
  symbol.withDeclarations trait (symbol.declarations trait ++ [pair])

def withOverloads (symbol : Symbol) (trait : Trait) (group : OverloadGroup) : Symbol :=
  { symbol with overloadsVariants := symbol.overloadsVariants.put trait group }

/-! ## Queries -/

def firstDeclaration? (symbol : Symbol) (trait : Trait) : Option Declaration :=
  (symbol.declarations trait).head?.map PlatformDeclaration.declaration

def overloads? (symbol : Symbol) (trait : Trait) : Option OverloadGroup :=
  symbol.overloadsVariants.get? trait

/-- Whether some trait has a platform declaration. -/
def hasDeclarations (symbol : Symbol) : Bool :=
  symbol.declarationVariants.entries.any fun entry => !entry.2.isEmpty

/-- The identifier of the language in which a trait presents the symbol. -/
def languageId (symbol : Symbol) (trait : Trait) : String :=
  trait.interfaceLanguage?.getD symbol.sourceLanguage.id

/-- An appended declaration comes last in its trait and leaves the other traits alone. -/
theorem declarations_withDeclaration (symbol : Symbol) (trait wanted : Trait)
    (pair : PlatformDeclaration) :
    (symbol.withDeclaration trait pair).declarations wanted
      = symbol.declarations wanted ++ if trait = wanted then [pair] else [] := by
  by_cases same : trait = wanted
  · subst same
    simp [withDeclaration, withDeclarations, declarations, TraitMap.get?_put]
  · simp [withDeclaration, withDeclarations, declarations, TraitMap.get?_put, same]

end Symbol

end DeclarationDocs
