import DeclarationDocs.Json.Record
import DeclarationDocs.Symbol

/-!
# The written form of declarations

References, platforms and traits are strings; a trait map is an object whose member names are the
traits. When such an object names a trait twice, the last member counts.
-/

namespace DeclarationDocs

open Json

def Reference.codec : Codec Reference := Codec.text.along Reference.mk Reference.text

def Platform.codec : Codec Platform := Codec.text.along Platform.mk Platform.name

def Trait.codec : Codec Trait := Codec.text.along Trait.ofText Trait.text

namespace TraitMap

variable {α : Type}

/-- Read the members of a trait map, in the order of the text. -/
def readMembers (codec : Codec α) (source : Source) :
    List (Key × Outline) → TraitMap α → Except ReadError (TraitMap α)
  | [], map => .ok map
  | (.named name, outline) :: rest, map => do
    let value ← codec.decode source outline
    readMembers codec source rest (map.put (Trait.ofText name) value)
  | _ :: _, _ => .error .malformed

def codec (codec : Codec α) : Codec (TraitMap α) where
  encode map := .object (map.entries.map fun (trait, value) => (trait.text, codec.encode value))
  decode source outline :=
    match outline with
    | .object members closed => do
      let map ← readMembers codec source members ∅
      if closed then return map else throw .malformed
    | outline => .error (outline.mismatch .map)

end TraitMap

def SourceLanguage.record : Record SourceLanguage where
  name := "SourceLanguage"
  fields := .field (.required "id" .text) <| .field (.required "name" .text) .done
  ofRow := fun (id, name, ()) => ⟨id, name⟩
  toRow language := (language.id, language.name, ())
  ofRow_toRow _ := rfl

def FragmentKind.codec : Codec FragmentKind := .variants FragmentKind.all FragmentKind.name

def Fragment.record : Record Fragment where
  name := "Fragment"
  fields :=
    .field (.required "kind" FragmentKind.codec) <| .field (.required "spelling" .text) <|
    .field (.optional "preciseIdentifier" .text) .done
  ofRow := fun (kind, spelling, preciseIdentifier, ()) => ⟨kind, spelling, preciseIdentifier⟩
  toRow fragment := (fragment.kind, fragment.spelling, fragment.preciseIdentifier, ())
  ofRow_toRow _ := rfl

def Declaration.record : Record Declaration where
  name := "Declaration"
  fields := .field (.required "fragments" Fragment.record.codec.list) .done
  ofRow := fun (fragments, ()) => ⟨fragments⟩
  toRow declaration := (declaration.fragments, ())
  ofRow_toRow _ := rfl

def PlatformDeclaration.record : Record PlatformDeclaration where
  name := "PlatformDeclaration"
  fields :=
    .field (.required "platforms" Platform.codec.optional.list) <|
    .field (.required "declaration" Declaration.record.codec) .done
  ofRow := fun (platforms, declaration, ()) => ⟨platforms, declaration⟩
  toRow pair := (pair.platforms, pair.declaration, ())
  ofRow_toRow _ := rfl

def PlatformDeclaration.variantsCodec : Codec (TraitMap (List PlatformDeclaration)) :=
  TraitMap.codec PlatformDeclaration.record.codec.list

end DeclarationDocs
