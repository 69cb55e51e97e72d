import DeclarationDocs.Codecs.Declaration
import DeclarationDocs.Section

/-!
# The written form of sections
-/

namespace DeclarationDocs

open Json

def LinkedToken.record : Record LinkedToken where
  name := "DeclarationToken"
  fields :=
    .field (.required "kind" FragmentKind.codec) <| .field (.required "text" .text) <|
    .field (.optional "identifier" Reference.codec) .done
  ofRow := fun (kind, text, identifier, ()) => ⟨kind, text, identifier⟩
  toRow token := (token.kind, token.text, token.identifier, ())
  ofRow_toRow _ := rfl

def SiblingRow.record : Record SiblingRow where
  name := "OtherDeclaration"
  fields :=
    .field (.required "identifier" Reference.codec) <|
    .field (.required "tokens" LinkedToken.record.codec.list) .done
  ofRow := fun (identifier, tokens, ()) => ⟨identifier, tokens⟩
  toRow row := (row.identifier, row.tokens, ())
  ofRow_toRow _ := rfl

def SiblingBlock.record : Record SiblingBlock where
  name := "OtherDeclarations"
  fields :=
    .field (.required "declarations" SiblingRow.record.codec.list) <|
    .field (.required "displayIndex" .index) .done
  ofRow := fun (rows, displayIndex, ()) => ⟨rows, displayIndex⟩
  toRow block := (block.rows, block.displayIndex, ())
  ofRow_toRow _ := rfl

def Entry.record : Record Entry where
  name := "DeclarationRenderSection"
  fields :=
    .field (.required "languages" Codec.text.list) <|
    .field (.required "platforms" Platform.codec.optional.list) <|
    .field (.required "tokens" LinkedToken.record.codec.list) <|
    .field (.optional "otherDeclarations" SiblingBlock.record.codec) .done
  ofRow := fun (languages, platforms, tokens, siblings, ()) =>
    ⟨languages, platforms, tokens, siblings⟩
  toRow entry := (entry.languages, entry.platforms, entry.tokens, entry.siblings, ())
  ofRow_toRow _ := rfl

def Section.record : Record Section where
  name := "DeclarationsRenderSection"
  fields := .field (.required "declarations" Entry.record.codec.list) .done
  ofRow := fun (entries, ()) => ⟨entries⟩
  toRow contents := (contents.entries, ())
  ofRow_toRow _ := rfl

end DeclarationDocs
