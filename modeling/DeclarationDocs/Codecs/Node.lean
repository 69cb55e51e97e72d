import DeclarationDocs.Codecs.Declaration
import DeclarationDocs.Node

/-!
# The written form of nodes

A node is written as its symbol or article with a member `kind` in front that tells which one it is.
On reading, `kind` may stand anywhere; the other members are stored until the object has ended and
are decoded then. In the array form the kind comes first.
-/

namespace DeclarationDocs

open Json

def OverloadGroup.record : Record OverloadGroup where
  name := "Overloads"
  fields :=
    .field (.required "references" Reference.codec.list) <|
    .field (.required "displayIndex" .index) .done
  ofRow := fun (references, displayIndex, ()) => ⟨references, displayIndex⟩
  toRow group := (group.references, group.displayIndex, ())
  ofRow_toRow _ := rfl

def Symbol.record : Record Symbol where
  name := "Symbol"
  fields :=
    .field (.required "reference" Reference.codec) <|
    .field (.optional "preciseIdentifier" .text) <|
    .field (.unlessDefault "title" .text "") <|
    .field (.withDefault "sourceLanguage" SourceLanguage.record.codec .standard) <|
    .field (.unlessDefault "declarationVariants" PlatformDeclaration.variantsCodec ∅) <|
    .field (.unlessDefault "overloadsVariants" (TraitMap.codec OverloadGroup.record.codec) ∅) .done
  ofRow := fun (reference, preciseIdentifier, title, sourceLanguage, declarationVariants,
      overloadsVariants, ()) =>
    ⟨reference, preciseIdentifier, title, sourceLanguage, declarationVariants, overloadsVariants⟩
  toRow symbol :=
    (symbol.reference, symbol.preciseIdentifier, symbol.title, symbol.sourceLanguage,
      symbol.declarationVariants, symbol.overloadsVariants, ())
  ofRow_toRow _ := rfl

def Article.record : Record Article where
  name := "Article"
  fields :=
    .field (.required "reference" Reference.codec) <| .field (.withDefault "title" .text "") .done
  ofRow := fun (reference, title, ()) => ⟨reference, title⟩
  toRow article := (article.reference, article.title, ())
  ofRow_toRow _ := rfl

namespace Node

/-- The two kinds of nodes. -/
inductive Kind where
  | symbol
  | article
deriving DecidableEq, Inhabited

namespace Kind

/-- Every kind, in the order in which they are listed to a reader who gave an unknown one. -/
def all : List Kind := [.symbol, .article]

def name : Kind → String
  | .symbol => "symbol"
  | .article => "article"

def decode : Outline → Except ReadError Kind
  | .text (some given) => Codec.variant? all name given
  | outline => .error (outline.mismatch .variantName)

end Kind

def kind : Node → Kind
  | .symbol _ => .symbol
  | .article _ => .article

def tag : String := "kind"

def encode (node : Node) : Value :=
  let members :=
    match node with
    | .symbol documented => Symbol.record.members documented
    | .article page => Article.record.members page
  .object ((tag, .text node.kind.name) :: members)

/-- Go through the members of a node: the kind is read at once, the other members are stored, each
with containers at most `room` deep. -/
def sortMembers (room : Nat) :
    List (Key × Outline) → Option Kind → Except ReadError (Option Kind × List (Key × Outline))
  | [], kind => .ok (kind, [])
  | (.named name, value) :: rest, kind =>
    if name = tag then
      if kind.isSome then .error (.content (.duplicateMember tag))
      else do
        let kind ← Kind.decode value
        sortMembers room rest (some kind)
    else if value.fits room then do
      let (kind, stored) ← sortMembers room rest kind
      return (kind, (.named name, value) :: stored)
    else .error .malformed
  | _ :: _, _ => .error .malformed

def ofStored (kind : Kind) (stored : Outline) : Except ReadError Node :=
  match kind with
  | .symbol => (Symbol.record.decode .stored stored).map .symbol
  | .article => (Article.record.decode .stored stored).map .article

/-- Read a node whose text may have containers at most `room` deep, the node itself included. -/
def decode (room : Nat) : Outline → Except ReadError Node
  | .object members closed => do
    let (kind, stored) ← sortMembers (room - 1) members none
    if closed then
      match kind with
      | some kind => ofStored kind (.object stored true)
      | none => throw (.content (.missingMember tag))
    else throw .malformed
  | .array [] closed =>
    if closed then .error (.content (.missingMember tag)) else .error .malformed
  | .array (first :: items) closed => do
    let kind ← Kind.decode first
    if closed && Outline.allFit (room - 1) items then ofStored kind (.array items true)
    else throw .malformed
  | outline => .error (outline.mismatch (.tagged "DocumentationNode"))

/-- How deep containers may be nested in a text. -/
def deepest : Nat := 127

def codec : Codec Node := ⟨encode, fun _ => decode deepest⟩

def listCodec : Codec (List Node) := Codec.list ⟨encode, fun _ => decode (deepest - 1)⟩

end Node

end DeclarationDocs
