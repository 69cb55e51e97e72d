/-!
# Declaration fragments

The printed form of a declaration is a list of fragments: classified pieces of text, some of which
name another entity by its precise identifier.
-/

namespace DeclarationDocs

/-- What a piece of a printed declaration is. -/
inductive FragmentKind where
  | keyword
  | attribute
  | number
  | string
  | identifier
  | typeIdentifier
  | genericParameter
  | internalParam
  | externalParam
  | text
deriving DecidableEq, Inhabited

namespace FragmentKind

/-- Every kind, in the order in which they are listed to a reader who gave an unknown one. -/
def all : List FragmentKind :=
  [.keyword, .attribute, .number, .string, .identifier, .typeIdentifier, .genericParameter,
    .internalParam, .externalParam, .text]

def name : FragmentKind → String
  | .keyword => "keyword"
  | .attribute => "attribute"
  | .number => "number"
  | .string => "string"
  | .identifier => "identifier"
  | .typeIdentifier => "typeIdentifier"
  | .genericParameter => "genericParameter"
  | .internalParam => "internalParam"
  | .externalParam => "externalParam"
  | .text => "text"

theorem mem_all (kind : FragmentKind) : kind ∈ all := by cases kind <;> decide

theorem name_injective {a b : FragmentKind} (same : a.name = b.name) : a = b := by
  cases a <;> cases b <;> first | rfl | exact absurd same (by decide)

end FragmentKind

/-- One piece of a printed declaration. -/
structure Fragment where
  kind : FragmentKind
  spelling : String
  /-- The precise identifier of the entity this piece names, if it names one. -/
  preciseIdentifier : Option String
deriving DecidableEq, Inhabited

namespace Fragment

def plain (kind : FragmentKind) (spelling : String) : Fragment := ⟨kind, spelling, none⟩

def keyword (spelling : String) : Fragment := plain .keyword spelling

def text (spelling : String) : Fragment := plain .text spelling

def identifier (spelling : String) : Fragment := plain .identifier spelling

def typeIdentifier (spelling preciseIdentifier : String) : Fragment :=
  ⟨.typeIdentifier, spelling, some preciseIdentifier⟩

end Fragment

/-- The printed form of an entity. -/
structure Declaration where
  fragments : List Fragment
deriving DecidableEq, Inhabited

namespace Declaration

def empty : Declaration := ⟨[]⟩

def isEmpty (declaration : Declaration) : Bool := declaration.fragments.isEmpty

end Declaration

end DeclarationDocs
