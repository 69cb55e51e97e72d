import DeclarationDocs.Proofs.Codecs.NodeSpellings
import DeclarationDocs.Proofs.Codecs.Omissions
import DeclarationDocs.Proofs.Json.Positional

/-!
# Positional forms

Every record of the format may be spelled as an object or as the array of its members, each record in
a value its own way. A node may be the array of its kind and the members of its record. All these
spellings are read as the value. What leaves out a member that has no default, of the value itself
or of a record in it, is refused.

Main statement: `records_read_either_way`.
-/

namespace DeclarationDocs

open Json

/-! ## Records -/

/-- The written form of an optional value is a spelling when that of the value is. -/
theorem Json.Spelling.forOptional_encode {α : Type} {spelling : Spelling α} {codec : Codec α}
    {optional : Option α}
    (each : ∀ value, optional = some value → spelling value (codec.encode value).outline) :
    spelling.ForOptional optional (codec.optional.encode optional).outline := by
  cases optional with
  | none => rfl
  | some value => exact each value rfl

def SourceLanguage.memberForms : record.fields.Spellings :=
  .field Codec.text.Written <| .field Codec.text.Written .done

def SourceLanguage.Form : Spelling SourceLanguage := record.SpelledEitherWay memberForms

def Fragment.memberForms : record.fields.Spellings :=
  .field FragmentKind.codec.Written <| .field Codec.text.Written <|
    .field Codec.text.optional.Written .done

def Fragment.Form : Spelling Fragment := record.SpelledEitherWay memberForms

def Declaration.memberForms : record.fields.Spellings := .field Fragment.Form.ForList .done

def Declaration.Form : Spelling Declaration := record.SpelledEitherWay memberForms

def PlatformDeclaration.memberForms : record.fields.Spellings :=
  .field Platform.codec.optional.list.Written <| .field Declaration.Form .done

def PlatformDeclaration.Form : Spelling PlatformDeclaration := record.SpelledEitherWay memberForms

def OverloadGroup.memberForms : record.fields.Spellings :=
  .field Reference.codec.list.Written <| .field Codec.index.Written .done

def OverloadGroup.Form : Spelling OverloadGroup := record.SpelledEitherWay memberForms

def Symbol.memberForms : record.fields.Spellings :=
  .field Reference.codec.Written <| .field Codec.text.optional.Written <|
    .field Codec.text.Written <| .field SourceLanguage.Form <|
    .field (TraitMap.Spelled PlatformDeclaration.Form.ForList) <|
    .field (TraitMap.Spelled OverloadGroup.Form) .done

def Symbol.Form : Spelling Symbol := record.SpelledEitherWay memberForms

def Article.Form : Spelling Article := record.SpelledEitherWay spellings

def LinkedToken.memberForms : record.fields.Spellings :=
  .field FragmentKind.codec.Written <| .field Codec.text.Written <|
    .field Reference.codec.optional.Written .done

def LinkedToken.Form : Spelling LinkedToken := record.SpelledEitherWay memberForms

def SiblingRow.memberForms : record.fields.Spellings :=
  .field Reference.codec.Written <| .field LinkedToken.Form.ForList .done

def SiblingRow.Form : Spelling SiblingRow := record.SpelledEitherWay memberForms

def SiblingBlock.memberForms : record.fields.Spellings :=
  .field SiblingRow.Form.ForList <| .field Codec.index.Written .done

def SiblingBlock.Form : Spelling SiblingBlock := record.SpelledEitherWay memberForms

def Entry.memberForms : record.fields.Spellings :=
  .field Codec.text.list.Written <| .field Platform.codec.optional.list.Written <|
    .field LinkedToken.Form.ForList <| .field SiblingBlock.Form.ForOptional .done

def Entry.Form : Spelling Entry := record.SpelledEitherWay memberForms

def Section.memberForms : record.fields.Spellings := .field Entry.Form.ForList .done

def Section.Form : Spelling Section := record.SpelledEitherWay memberForms

def LogConfig.memberForms : record.fields.Spellings := .field Codec.text.Written .done

def LogConfig.Form : Spelling LogConfig := record.SpelledEitherWay memberForms

def Config.memberForms : record.fields.Spellings :=
  .field DiagnosticLevel.codec.Written <| .field LogConfig.Form .done

def Config.Form : Spelling Config := record.SpelledEitherWay memberForms

/-! ### What is accepted -/

section

variable {depth : Nat} (deep : 100 ≤ depth)

theorem SourceLanguage.forms_accepted : memberForms.Accepted depth :=
  .field (Codec.accepts_written (Codec.text_returns depth)) <|
    .field (Codec.accepts_written (Codec.text_returns depth)) .done

theorem Fragment.forms_accepted : memberForms.Accepted depth :=
  .field (Codec.accepts_written (FragmentKind.returns depth)) <|
    .field (Codec.accepts_written (Codec.text_returns depth)) <|
    .field (Codec.accepts_written
      (Codec.optional_returns (Codec.text_returns depth) fun _ same => nomatch same)) .done

theorem LinkedToken.forms_accepted : memberForms.Accepted depth :=
  .field (Codec.accepts_written (FragmentKind.returns depth)) <|
    .field (Codec.accepts_written (Codec.text_returns depth)) <|
    .field (Codec.accepts_written
      (Codec.optional_returns (Reference.returns depth) fun _ same => nomatch same)) .done

theorem OverloadGroup.forms_accepted : memberForms.Accepted (depth + 1) :=
  .field (Codec.accepts_written (Codec.list_returns (Reference.returns depth))) <|
    .field (Codec.accepts_written (Codec.index_returns (depth + 1))) .done

theorem LogConfig.forms_accepted : memberForms.Accepted depth :=
  .field (Codec.accepts_written (Codec.text_returns depth)) .done

include deep

theorem SourceLanguage.form_accepted : record.codec.Accepts Form (depth + 1) :=
  Record.accepts_eitherWay forms_accepted (by decide) deep

theorem Fragment.form_accepted : record.codec.Accepts Form (depth + 1) :=
  Record.accepts_eitherWay forms_accepted (by decide) deep

theorem Declaration.forms_accepted : memberForms.Accepted (depth + 2) :=
  .field (Fragment.form_accepted deep).list .done

theorem Declaration.form_accepted : record.codec.Accepts Form (depth + 3) :=
  Record.accepts_eitherWay (forms_accepted deep) (by decide) (by omega)

theorem PlatformDeclaration.forms_accepted : memberForms.Accepted (depth + 3) :=
  .field (Codec.accepts_written (Codec.list_returns (Platform.optional_returns (depth + 2)))) <|
    .field (Declaration.form_accepted deep) .done

theorem PlatformDeclaration.form_accepted : record.codec.Accepts Form (depth + 4) :=
  Record.accepts_eitherWay (forms_accepted deep) (by decide) (by omega)

theorem OverloadGroup.form_accepted : record.codec.Accepts Form (depth + 2) :=
  Record.accepts_eitherWay forms_accepted (by decide) (by omega)

theorem Symbol.forms_accepted : memberForms.Accepted (depth + 6) :=
  .field (Codec.accepts_written (Reference.returns (depth + 6))) <|
    .field (Codec.accepts_written
      (Codec.optional_returns (Codec.text_returns (depth + 6)) fun _ same => nomatch same)) <|
    .field (Codec.accepts_written (Codec.text_returns (depth + 6))) <|
    .field (SourceLanguage.form_accepted (by omega)) <|
    .field (TraitMap.accepts (PlatformDeclaration.form_accepted deep).list) <|
    .field (TraitMap.accepts (OverloadGroup.form_accepted (by omega))) .done

theorem LinkedToken.form_accepted : record.codec.Accepts Form (depth + 1) :=
  Record.accepts_eitherWay forms_accepted (by decide) deep

theorem SiblingRow.forms_accepted : memberForms.Accepted (depth + 2) :=
  .field (Codec.accepts_written (Reference.returns (depth + 2))) <|
    .field (LinkedToken.form_accepted deep).list .done

theorem SiblingRow.form_accepted : record.codec.Accepts Form (depth + 3) :=
  Record.accepts_eitherWay (forms_accepted deep) (by decide) (by omega)

theorem SiblingBlock.forms_accepted : memberForms.Accepted (depth + 4) :=
  .field (SiblingRow.form_accepted deep).list <|
    .field (Codec.accepts_written (Codec.index_returns (depth + 4))) .done

theorem SiblingBlock.form_accepted : record.codec.Accepts Form (depth + 5) :=
  Record.accepts_eitherWay (forms_accepted deep) (by decide) (by omega)

theorem Entry.forms_accepted : memberForms.Accepted (depth + 5) :=
  .field (Codec.accepts_written (Codec.list_returns (Codec.text_returns (depth + 4)))) <|
    .field (Codec.accepts_written (Codec.list_returns (Platform.optional_returns (depth + 4)))) <|
    .field (LinkedToken.form_accepted (by omega : 100 ≤ depth + 3)).list <|
    .field ((SiblingBlock.form_accepted deep).optional Record.not_spelledEitherWay_null) .done

theorem Entry.form_accepted : record.codec.Accepts Form (depth + 6) :=
  Record.accepts_eitherWay (forms_accepted deep) (by decide) (by omega)

theorem Section.forms_accepted : memberForms.Accepted (depth + 7) :=
  .field (Entry.form_accepted deep).list .done

theorem LogConfig.form_accepted : record.codec.Accepts Form (depth + 1) :=
  Record.accepts_eitherWay forms_accepted (by decide) deep

theorem Config.forms_accepted : memberForms.Accepted (depth + 1) :=
  .field (Codec.accepts_written (DiagnosticLevel.returns (depth + 1))) <|
    .field (LogConfig.form_accepted deep) .done

end

/-! ### What is written -/

theorem SourceLanguage.forms_asWritten (language : SourceLanguage) :
    memberForms.AsWritten (record.toRow language) := ⟨rfl, rfl, trivial⟩

theorem Fragment.forms_asWritten (fragment : Fragment) :
    memberForms.AsWritten (record.toRow fragment) := ⟨rfl, rfl, rfl, trivial⟩

theorem Declaration.forms_asWritten (declaration : Declaration) :
    memberForms.AsWritten (record.toRow declaration) :=
  ⟨Spelling.forList_encode fun fragment _ =>
    Record.spelledEitherWay_encode fragment.forms_asWritten, trivial⟩

theorem PlatformDeclaration.forms_asWritten (pair : PlatformDeclaration) :
    memberForms.AsWritten (record.toRow pair) :=
  ⟨rfl, Record.spelledEitherWay_encode pair.declaration.forms_asWritten, trivial⟩

theorem OverloadGroup.forms_asWritten (group : OverloadGroup) :
    memberForms.AsWritten (record.toRow group) := ⟨rfl, rfl, trivial⟩

theorem Symbol.forms_asWritten {symbol : Symbol} (proper : symbol.IsProper) :
    memberForms.AsWritten (record.toRow symbol) :=
  ⟨rfl, rfl, rfl, Record.spelledEitherWay_encode symbol.sourceLanguage.forms_asWritten,
    TraitMap.spelled_encode proper.1 fun _ _ =>
      Spelling.forList_encode fun pair _ => Record.spelledEitherWay_encode pair.forms_asWritten,
    TraitMap.spelled_encode proper.2 fun entry _ =>
      Record.spelledEitherWay_encode entry.2.forms_asWritten, trivial⟩

theorem LinkedToken.forms_asWritten (token : LinkedToken) :
    memberForms.AsWritten (record.toRow token) := ⟨rfl, rfl, rfl, trivial⟩

theorem SiblingRow.forms_asWritten (row : SiblingRow) :
    memberForms.AsWritten (record.toRow row) :=
  ⟨rfl, Spelling.forList_encode fun token _ =>
    Record.spelledEitherWay_encode token.forms_asWritten, trivial⟩

theorem SiblingBlock.forms_asWritten (block : SiblingBlock) :
    memberForms.AsWritten (record.toRow block) :=
  ⟨Spelling.forList_encode fun row _ => Record.spelledEitherWay_encode row.forms_asWritten, rfl,
    trivial⟩

theorem Entry.forms_asWritten (entry : Entry) : memberForms.AsWritten (record.toRow entry) :=
  ⟨rfl, rfl, Spelling.forList_encode fun token _ =>
      Record.spelledEitherWay_encode token.forms_asWritten,
    Spelling.forOptional_encode fun block _ =>
      Record.spelledEitherWay_encode block.forms_asWritten, trivial⟩

theorem Section.forms_asWritten (contents : Section) :
    memberForms.AsWritten (record.toRow contents) :=
  ⟨Spelling.forList_encode fun entry _ => Record.spelledEitherWay_encode entry.forms_asWritten,
    trivial⟩

theorem LogConfig.forms_asWritten (config : LogConfig) :
    memberForms.AsWritten (record.toRow config) := ⟨rfl, trivial⟩

theorem Config.forms_asWritten (config : Config) : memberForms.AsWritten (record.toRow config) :=
  ⟨rfl, Record.spelledEitherWay_encode config.log.forms_asWritten, trivial⟩

/-! ## Nodes -/

namespace Node

/-- A record spelled behind the kind that it is of: as an object with the kind anywhere among its
members, or as an array of the kind and its members. -/
def FormWithKind {τ : Type} (record : Record τ) (spellings : record.fields.Spellings)
    (kind : Kind) : Spelling τ := fun value outline =>
  (∃ members others, outline = .object members true
      ∧ members.Perm ((.named tag, .text (some kind.name)) :: others)
      ∧ (∀ member ∈ others, member.1 ≠ .named tag)
      ∧ record.SpelledAsObject spellings value (.object others true))
    ∨ ∃ items, outline = .array (.text (some kind.name) :: items) true
      ∧ record.SpelledAsArray spellings value (.array items true)

def Form : Spelling Node
  | .symbol documented => FormWithKind Symbol.record Symbol.memberForms .symbol documented
  | .article page => FormWithKind Article.record Article.spellings .article page

/-- A node written as the array of its kind and the members of its record. -/
def positional (node : Node) : Value :=
  .array (.text node.kind.name :: match node with
    | .symbol documented => Symbol.record.fields.items (Symbol.record.toRow documented)
    | .article page => Article.record.fields.items (Article.record.toRow page))

section

variable {τ : Type} {record : Record τ} {spellings : record.fields.Spellings} {depth : Nat}
  {kind : Kind} {value : τ}

/-- The kind is read at once, and the record is decoded from what is stored besides it. -/
theorem decode_of_formWithKind (law : spellings.Accepted depth)
    (apart : record.fields.names.Nodup) (deep : 100 ≤ depth) {outline : Outline}
    (form : FormWithKind record spellings kind value outline) :
    ∃ stored, decode (depth + 1) outline = ofStored kind stored
      ∧ record.decode .stored stored = .ok value := by
  rcases form with ⟨members, others, rfl, reordered, other, asObject⟩ | ⟨items, rfl, asArray⟩
  · exact decode_of_kindAmong law apart deep reordered other asObject
  · have accepts : record.codec.Accepts (record.SpelledAsArray spellings) (depth + 1) :=
      Record.accepts_asArray law
    have fitting : Outline.allFit depth items = true := by
      have whole := accepts.fits asArray
      simp only [Outline.fits, Bool.and_true] at whole
      exact whole
    refine ⟨.array items true, ?_, accepts.decode .stored asArray⟩
    show (Kind.decode (.text (some kind.name)) >>= _) = _
    rw [Kind.decode_name]
    exact if_pos fitting

theorem form_tagged (own : tag ∉ record.fields.names)
    (written : spellings.AsWritten (record.toRow value)) :
    FormWithKind record spellings kind value (tagged record kind value).outline := by
  obtain ⟨members, others, same, reordered, other, spelled⟩ :=
    spelledWithKind_encode own kind written
  exact .inl ⟨members, others, same, reordered, other, Record.spelledAsObject_of_spelled spelled⟩

end

theorem decode_of_form {node : Node} {outline : Outline} (form : node.Form outline) :
    decode deepest outline = .ok node := by
  cases node with
  | symbol documented =>
    have law : Symbol.memberForms.Accepted 126 := Symbol.forms_accepted (by decide)
    obtain ⟨stored, sorted, decoded⟩ := decode_of_formWithKind law (by decide) (by decide) form
    rw [deepest, sorted, ofStored, decoded]
    rfl
  | article page =>
    have law : Article.spellings.Accepted 126 := Article.spellings_accepted
    obtain ⟨stored, sorted, decoded⟩ := decode_of_formWithKind law (by decide) (by decide) form
    rw [deepest, sorted, ofStored, decoded]
    rfl

theorem form_encode {node : Node} (proper : node.IsProper) : node.Form (encode node).outline := by
  cases node with
  | symbol documented => exact form_tagged (by decide) (Symbol.forms_asWritten proper)
  | article page => exact form_tagged (by decide) (Article.asWritten page)

theorem form_positional {node : Node} (proper : node.IsProper) :
    node.Form node.positional.outline := by
  cases node with
  | symbol documented =>
    exact .inr ⟨_, rfl, _, rfl, Fields.Spellings.lists_items (Symbol.forms_asWritten proper)⟩
  | article page =>
    exact .inr ⟨_, rfl, _, rfl, Fields.Spellings.lists_items (Article.asWritten page)⟩

end Node

/-! ## What is read -/

/-- A type is read from every text that spells a value in one of its forms. Among the forms of a proper
value are the one in which it is written and the array of its members. A text that leaves something
out is refused. -/
structure Json.Codec.ReadsForms {α : Type} (codec : Codec α) (form : Spelling α)
    (positional : α → Value) (IsProper : α → Prop) (lacks : Outline → Prop) : Prop where
  read : ∀ a outline text, form a outline → IsTextOf text outline → codec.read text = .ok a
  asWritten : ∀ a, IsProper a → form a (codec.encode a).outline
  asArray : ∀ a, IsProper a → form a (positional a).outline
  refuse : ∀ text, lacks (Document.ofText text).root → ∃ error, codec.read text = .error error

/-- Every value of a record type is read from its forms. -/
abbrev Json.Record.ReadsForms {τ : Type} (record : Record τ) (form : Spelling τ)
    (IsProper : τ → Prop) : Prop :=
  record.codec.ReadsForms form record.positional IsProper (Lacks record.codec)

theorem Json.Record.readsForms {τ : Type} {record : Record τ} {spellings : record.fields.Spellings}
    {depth : Nat} (law : spellings.Accepted depth) (apart : record.fields.names.Nodup)
    (deep : 100 ≤ depth) {IsProper : τ → Prop}
    (written : ∀ value, IsProper value → spellings.AsWritten (record.toRow value)) :
    record.ReadsForms (record.SpelledEitherWay spellings) IsProper where
  read value outline text form said := by
    rw [record.codec.read_of_isTextOf said]
    exact (accepts_eitherWay law apart deep).decode .live form
  asWritten value proper := spelledEitherWay_encode (written value proper)
  asArray value proper := spelledEitherWay_positional (written value proper)
  refuse _ lacks := lacks.refuses.read

theorem Node.readsForms : codec.ReadsForms Form positional IsProper Lacks where
  read node outline text form said := by
    rw [codec.read_of_isTextOf said]
    exact decode_of_form form
  asWritten _ := form_encode
  asArray _ := form_positional
  refuse _ lacks := (refuses_of_lacks lacks).read

/-- Every record type and the nodes are read from their forms, and refused when something is left out
that has to be there. The texts are put together from the texts of their parts, down to written names,
numbers and strings. -/
theorem records_read_either_way :
    SourceLanguage.record.ReadsForms SourceLanguage.Form (fun _ => True)
      ∧ Fragment.record.ReadsForms Fragment.Form (fun _ => True)
      ∧ Declaration.record.ReadsForms Declaration.Form (fun _ => True)
      ∧ PlatformDeclaration.record.ReadsForms PlatformDeclaration.Form (fun _ => True)
      ∧ OverloadGroup.record.ReadsForms OverloadGroup.Form (fun _ => True)
      ∧ Symbol.record.ReadsForms Symbol.Form Symbol.IsProper
      ∧ Article.record.ReadsForms Article.Form (fun _ => True)
      ∧ LinkedToken.record.ReadsForms LinkedToken.Form (fun _ => True)
      ∧ SiblingRow.record.ReadsForms SiblingRow.Form (fun _ => True)
      ∧ SiblingBlock.record.ReadsForms SiblingBlock.Form (fun _ => True)
      ∧ Entry.record.ReadsForms Entry.Form (fun _ => True)
      ∧ Section.record.ReadsForms Section.Form (fun _ => True)
      ∧ LogConfig.record.ReadsForms LogConfig.Form (fun _ => True)
      ∧ Config.record.ReadsForms Config.Form (fun _ => True)
      ∧ Node.codec.ReadsForms Node.Form Node.positional Node.IsProper Node.Lacks
      ∧ (∀ name, Names (Value.text name).toText name)
      ∧ (∀ depth value, Value.Within depth value → IsTextOf value.toText value.outline)
      ∧ (∀ items outlines, List.Forall₂ IsTextOf items outlines →
        IsTextOf (arrayText items) (.array outlines true))
      ∧ ∀ members outlines, List.Forall₂ IsTextOfMember members outlines →
        IsTextOf (objectText members) (.object outlines true) := by
  have deep : 100 ≤ 100 := Nat.le_refl 100
  refine ⟨?_, ?_, ?_, ?_, ?_, ?_, ?_, ?_, ?_, ?_, ?_, ?_, ?_, ?_, Node.readsForms, names_toText,
    fun _ _ => isTextOf_toText, fun _ _ => isTextOf_arrayText, fun _ _ => isTextOf_objectText⟩
  · exact Record.readsForms SourceLanguage.forms_accepted (by decide) deep fun language _ =>
      language.forms_asWritten
  · exact Record.readsForms Fragment.forms_accepted (by decide) deep fun fragment _ =>
      fragment.forms_asWritten
  · exact Record.readsForms (Declaration.forms_accepted deep) (by decide) (by decide)
      fun declaration _ => declaration.forms_asWritten
  · exact Record.readsForms (PlatformDeclaration.forms_accepted deep) (by decide) (by decide)
      fun pair _ => pair.forms_asWritten
  · exact Record.readsForms (@OverloadGroup.forms_accepted 100) (by decide) (by decide)
      fun group _ => group.forms_asWritten
  · exact Record.readsForms (Symbol.forms_accepted deep) (by decide) (by decide)
      fun _ => Symbol.forms_asWritten
  · exact Record.readsForms Article.spellings_accepted (by decide) deep fun page _ =>
      page.asWritten
  · exact Record.readsForms LinkedToken.forms_accepted (by decide) deep fun token _ =>
      token.forms_asWritten
  · exact Record.readsForms (SiblingRow.forms_accepted deep) (by decide) (by decide)
      fun row _ => row.forms_asWritten
  · exact Record.readsForms (SiblingBlock.forms_accepted deep) (by decide) (by decide)
      fun block _ => block.forms_asWritten
  · exact Record.readsForms (Entry.forms_accepted deep) (by decide) (by decide)
      fun entry _ => entry.forms_asWritten
  · exact Record.readsForms (Section.forms_accepted deep) (by decide) (by decide)
      fun contents _ => contents.forms_asWritten
  · exact Record.readsForms LogConfig.forms_accepted (by decide) deep fun config _ =>
      config.forms_asWritten
  · exact Record.readsForms (Config.forms_accepted deep) (by decide) (by decide)
      fun config _ => config.forms_asWritten

-- The node, the language, the declaration and the fragment are arrays, and the pair is an object. What
-- is absent or empty at the ends of the arrays is left out.
example : Node.codec.read ("[\"symbol\",\"doc://Kit/f\",null,\"\",[\"swift\",\"Swift\"],"
      ++ "\x7b\"\":[\x7b\"platforms\":[null,\"macOS\"],\"declaration\":[[[\"keyword\",\"func\"]]]\x7d]\x7d]")
    = .ok (.symbol ((Symbol.bare ⟨"doc://Kit/f"⟩ .swift).withDeclaration .fallback
        ⟨[none, some .macOS], ⟨[.keyword "func"]⟩⟩)) := by decide +kernel

end DeclarationDocs
