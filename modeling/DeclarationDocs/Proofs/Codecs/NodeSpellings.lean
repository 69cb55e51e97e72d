import DeclarationDocs.Proofs.Codecs.RoundTrip
import DeclarationDocs.Proofs.Json.Assembly

/-!
# Spellings of nodes

A node is read from every text that spells it. The members of its objects come in any order, with
the kind of the node anywhere among the others; what is left out when the node is written may be
spelled all the same; and in every object but the trait maps, where each name stands for a trait,
there may be members that the type does not know. Each type's spellings follow the type, as its
written form does.

Main statement: `Node.read_of_spelling`.
-/

namespace DeclarationDocs

open Json

/-! ## Trait maps -/

namespace TraitMap

variable {α : Type}

/-- A member that spells an entry. Its name is a text that stands for the trait. -/
def SpellsEntry (valueSpelling : Spelling α) (entry : Trait × α) (member : Key × Outline) : Prop :=
  (∃ name, member.1 = .named name ∧ Trait.ofText name = entry.1)
    ∧ valueSpelling entry.2 member.2

/-- A trait map spelled as an object: a member for each entry, in any order. -/
def Spelled (valueSpelling : Spelling α) : Spelling (TraitMap α) := fun map outline =>
  ∃ members entries, outline = .object members true ∧ entries.Perm map.entries
    ∧ List.Forall₂ (SpellsEntry valueSpelling) entries members

theorem putAll_cons (map : TraitMap α) {entry : Trait × α} (proper : entry.1.IsProper)
    (entries : List (Trait × α)) :
    map.putAll (entry :: entries) = (map.put entry.1 entry.2).putAll entries := by
  show (map.put entry.1.canonical entry.2).putAll entries = _
  rw [Trait.canonical_of_isProper proper]

theorem get?_putAll {entries : List (Trait × α)} (map : TraitMap α)
    (distinct : (entries.map TraitMap.key).Nodup)
    (proper : ∀ entry ∈ entries, entry.1.IsProper) (trait : Trait) :
    (map.putAll entries).get? trait = (lookUp? entries trait).or (map.get? trait) := by
  induction entries generalizing map with
  | nil => rfl
  | cons entry entries ih =>
    obtain ⟨fresh, distinct⟩ := List.nodup_cons.mp distinct
    obtain ⟨first, proper⟩ := List.forall_mem_cons.mp proper
    rw [putAll_cons map first, ih _ distinct proper, get?_put, lookUp?_cons]
    by_cases same : entry.1 = trait
    · have none : lookUp? entries trait = none := by
        rw [lookUp?, List.find?_eq_none.mpr]
        · rfl
        · intro later listed found
          refine fresh (List.mem_map.mpr ⟨later, listed, ?_⟩)
          exact (of_decide_eq_true found).trans same.symm
      rw [if_pos same, if_pos same, none]
      rfl
    · rw [if_neg same, if_neg same]

theorem lookUp?_eq_some_iff {entries : List (Trait × α)}
    (distinct : (entries.map TraitMap.key).Nodup) {trait : Trait} {value : α} :
    lookUp? entries trait = some value ↔ (trait, value) ∈ entries := by
  induction entries with
  | nil => simp [lookUp?]
  | cons entry entries ih =>
    obtain ⟨fresh, distinct⟩ := List.nodup_cons.mp distinct
    rw [lookUp?_cons, List.mem_cons]
    by_cases same : entry.1 = trait
    · subst same
      rw [if_pos rfl, Option.some.injEq]
      constructor
      · rintro rfl
        exact .inl rfl
      · rintro (first | later)
        · rw [← first]
        · exact absurd (List.mem_map_of_mem later) fresh
    · rw [if_neg same, ih distinct]
      constructor
      · exact .inr
      · rintro (first | later)
        · exact absurd (congrArg Prod.fst first).symm same
        · exact later

/-- A map is what its entries make it, in whatever order they are stored. -/
theorem putAll_of_perm {map : TraitMap α} {entries : List (Trait × α)}
    (reordered : entries.Perm map.entries) (proper : ∀ entry ∈ entries, entry.1.IsProper) :
    (∅ : TraitMap α).putAll entries = map := by
  have distinct : (entries.map TraitMap.key).Nodup :=
    (reordered.map TraitMap.key).nodup_iff.mpr (Catalog.nodup_keys map)
  refine ext_get? fun trait => ?_
  rw [get?_putAll ∅ distinct proper, show TraitMap.get? ∅ trait = none from rfl, Option.or_none]
  ext value
  rw [lookUp?_eq_some_iff distinct, reordered.mem_iff]
  exact (lookUp?_eq_some_iff (Catalog.nodup_keys map)).symm

section Accepts

variable {codec : Codec α} {valueSpelling : Spelling α} {depth : Nat}

theorem readMembers_of_spelling (law : codec.Accepts valueSpelling depth) (source : Source)
    {entries : List (Trait × α)} {members : List (Key × Outline)}
    (each : List.Forall₂ (SpellsEntry valueSpelling) entries members) (map : TraitMap α) :
    readMembers codec source members map = .ok (map.putAll entries) := by
  induction each generalizing map with
  | nil => rfl
  | @cons entry member _ _ first _ ih =>
    obtain ⟨key, outline⟩ := member
    obtain ⟨⟨name, rfl, trait⟩, spelled⟩ := first
    have proper : entry.1.IsProper := trait ▸ Trait.isProper_ofText name
    rw [readMembers, law.decode source spelled, trait, putAll_cons map proper]
    exact ih _

theorem isProper_of_spellsEntry {entries : List (Trait × α)} {members : List (Key × Outline)}
    (each : List.Forall₂ (SpellsEntry valueSpelling) entries members) :
    ∀ entry ∈ entries, entry.1.IsProper := by
  induction each with
  | nil => simp
  | cons first _ ih =>
    obtain ⟨⟨name, -, trait⟩, -⟩ := first
    exact List.forall_mem_cons.mpr ⟨trait ▸ Trait.isProper_ofText name, ih⟩

theorem membersFit_of_spellsEntry (law : codec.Accepts valueSpelling depth)
    {entries : List (Trait × α)} {members : List (Key × Outline)}
    (each : List.Forall₂ (SpellsEntry valueSpelling) entries members) :
    Outline.membersFit depth members = true := by
  refine Outline.membersFit_iff.mpr ?_
  induction each with
  | nil => simp
  | cons first _ ih =>
    obtain ⟨⟨name, named, -⟩, spelled⟩ := first
    exact List.forall_mem_cons.mpr ⟨⟨⟨name, named⟩, law.fits spelled⟩, ih⟩

theorem accepts (law : codec.Accepts valueSpelling depth) :
    (TraitMap.codec codec).Accepts (Spelled valueSpelling) (depth + 1) where
  fits := by
    rintro map _ ⟨members, entries, rfl, -, each⟩
    simp only [Outline.fits, membersFit_of_spellsEntry law each, Bool.and_self]
  decode := by
    rintro source map _ ⟨members, entries, rfl, reordered, each⟩
    show (readMembers codec source members ∅ >>= _) = _
    rw [readMembers_of_spelling law source each,
      putAll_of_perm reordered (isProper_of_spellsEntry each)]
    rfl

theorem ofText_text_of_mem {map : TraitMap α} (proper : map.IsProper) {entry : Trait × α}
    (stored : entry ∈ map.entries) : Trait.ofText entry.1.text = entry.1 := by
  refine (Trait.ofText_text_eq_iff entry.1).mpr fun blank => ?_
  have found : map.find? entry.1 = some entry := Catalog.find?_eq_some_of_mem stored
  rw [IsProper, get?, ← blank, found] at proper
  cases proper

/-- A map without the language of the empty identifier is spelled as it is written. -/
theorem spelled_encode {map : TraitMap α} (proper : map.IsProper)
    (each : ∀ entry ∈ map.entries, valueSpelling entry.2 (codec.encode entry.2).outline) :
    Spelled valueSpelling map ((TraitMap.codec codec).encode map).outline := by
  refine ⟨_, map.entries, rfl, .refl _, ?_⟩
  have traits : ∀ entry ∈ map.entries, Trait.ofText entry.1.text = entry.1 :=
    fun entry => ofText_text_of_mem proper
  generalize map.entries = entries at each traits
  induction entries with
  | nil => exact .nil
  | cons entry entries ih =>
    obtain ⟨first, others⟩ := List.forall_mem_cons.mp each
    obtain ⟨trait, traits⟩ := List.forall_mem_cons.mp traits
    exact .cons ⟨⟨_, rfl, trait⟩, first⟩ (ih others traits)

end Accepts

end TraitMap

/-! ## Records -/

def SourceLanguage.Spelled : Spelling SourceLanguage :=
  record.Spelled (.field Codec.text.Written <| .field Codec.text.Written .done)

def Fragment.Spelled : Spelling Fragment :=
  record.Spelled (.field FragmentKind.codec.Written <| .field Codec.text.Written <|
    .field Codec.text.optional.Written .done)

def Declaration.Spelled : Spelling Declaration :=
  record.Spelled (.field Fragment.Spelled.ForList .done)

def PlatformDeclaration.Spelled : Spelling PlatformDeclaration :=
  record.Spelled (.field Platform.codec.optional.list.Written <|
    .field Declaration.Spelled .done)

def OverloadGroup.Spelled : Spelling OverloadGroup :=
  record.Spelled (.field Reference.codec.list.Written <| .field Codec.index.Written .done)

def Symbol.spellings : record.fields.Spellings :=
  .field Reference.codec.Written <| .field Codec.text.optional.Written <|
    .field Codec.text.Written <| .field SourceLanguage.Spelled <|
    .field (TraitMap.Spelled PlatformDeclaration.Spelled.ForList) <|
    .field (TraitMap.Spelled OverloadGroup.Spelled) .done

def Article.spellings : record.fields.Spellings :=
  .field Reference.codec.Written <| .field Codec.text.Written .done

section

variable {depth : Nat} (deep : 100 ≤ depth)

include deep

theorem SourceLanguage.accepts : record.codec.Accepts Spelled (depth + 1) :=
  Record.accepts
    (.field (Codec.accepts_written (Codec.text_returns depth)) <|
      .field (Codec.accepts_written (Codec.text_returns depth)) .done)
    (by decide) deep

theorem Fragment.accepts : record.codec.Accepts Spelled (depth + 1) :=
  Record.accepts
    (.field (Codec.accepts_written (FragmentKind.returns depth)) <|
      .field (Codec.accepts_written (Codec.text_returns depth)) <|
      .field (Codec.accepts_written
        (Codec.optional_returns (Codec.text_returns depth) fun _ same => nomatch same)) .done)
    (by decide) deep

theorem Declaration.accepts : record.codec.Accepts Spelled (depth + 3) :=
  Record.accepts (.field (Fragment.accepts deep).list .done) (by decide) (by omega)

theorem PlatformDeclaration.accepts : record.codec.Accepts Spelled (depth + 4) :=
  Record.accepts
    (.field (Codec.accepts_written (Codec.list_returns (Platform.optional_returns (depth + 2)))) <|
      .field (Declaration.accepts deep) .done)
    (by decide) (by omega)

theorem OverloadGroup.accepts : record.codec.Accepts Spelled (depth + 2) :=
  Record.accepts
    (.field (Codec.accepts_written (Codec.list_returns (Reference.returns depth))) <|
      .field (Codec.accepts_written (Codec.index_returns (depth + 1))) .done)
    (by decide) (by omega)

theorem Symbol.spellings_accepted : spellings.Accepted (depth + 6) :=
  .field (Codec.accepts_written (Reference.returns (depth + 6))) <|
    .field (Codec.accepts_written
      (Codec.optional_returns (Codec.text_returns (depth + 6)) fun _ same => nomatch same)) <|
    .field (Codec.accepts_written (Codec.text_returns (depth + 6))) <|
    .field (SourceLanguage.accepts (by omega)) <|
    .field (TraitMap.accepts (PlatformDeclaration.accepts deep).list) <|
    .field (TraitMap.accepts (OverloadGroup.accepts (by omega))) .done

omit deep in
theorem Article.spellings_accepted : spellings.Accepted depth :=
  .field (Codec.accepts_written (Reference.returns depth)) <|
    .field (Codec.accepts_written (Codec.text_returns depth)) .done

end

/-! ### Written records -/

theorem SourceLanguage.spelled_encode (language : SourceLanguage) :
    language.Spelled (record.codec.encode language).outline :=
  Record.spelled_encode ⟨rfl, rfl, trivial⟩

theorem Fragment.spelled_encode (fragment : Fragment) :
    fragment.Spelled (record.codec.encode fragment).outline :=
  Record.spelled_encode ⟨rfl, rfl, rfl, trivial⟩

theorem Declaration.spelled_encode (declaration : Declaration) :
    declaration.Spelled (record.codec.encode declaration).outline :=
  Record.spelled_encode
    ⟨Spelling.forList_encode fun fragment _ => fragment.spelled_encode, trivial⟩

theorem PlatformDeclaration.spelled_encode (pair : PlatformDeclaration) :
    pair.Spelled (record.codec.encode pair).outline :=
  Record.spelled_encode ⟨rfl, pair.declaration.spelled_encode, trivial⟩

theorem OverloadGroup.spelled_encode (group : OverloadGroup) :
    group.Spelled (record.codec.encode group).outline :=
  Record.spelled_encode ⟨rfl, rfl, trivial⟩

theorem Symbol.asWritten {symbol : Symbol} (proper : symbol.IsProper) :
    spellings.AsWritten (record.toRow symbol) :=
  ⟨rfl, rfl, rfl, symbol.sourceLanguage.spelled_encode,
    TraitMap.spelled_encode proper.1 fun _ _ =>
      Spelling.forList_encode fun pair _ => pair.spelled_encode,
    TraitMap.spelled_encode proper.2 fun entry _ => entry.2.spelled_encode, trivial⟩

theorem Article.asWritten (page : Article) : spellings.AsWritten (record.toRow page) :=
  ⟨rfl, rfl, trivial⟩

/-! ## Nodes -/

namespace Node

/-- A record spelled as an object with the kind anywhere among its members. -/
def SpelledWithKind {τ : Type} (record : Record τ) (spellings : record.fields.Spellings)
    (kind : Kind) : Spelling τ := fun value outline =>
  ∃ members others, outline = .object members true
    ∧ members.Perm ((.named tag, .text (some kind.name)) :: others)
    ∧ (∀ member ∈ others, member.1 ≠ .named tag)
    ∧ record.Spelled spellings value (.object others true)

def Spelled : Spelling Node
  | .symbol documented => SpelledWithKind Symbol.record Symbol.spellings .symbol documented
  | .article page => SpelledWithKind Article.record Article.spellings .article page

section

variable {τ : Type} {record : Record τ} {spellings : record.fields.Spellings} {depth : Nat}

/-- The kind is found among the members, and the record is decoded from the others. -/
theorem decode_of_kindAmong (law : spellings.Accepted depth) (apart : record.fields.names.Nodup)
    (deep : 100 ≤ depth) {kind : Kind} {value : τ} {members others : List (Key × Outline)}
    (reordered : members.Perm ((.named tag, .text (some kind.name)) :: others))
    (other : ∀ member ∈ others, member.1 ≠ .named tag)
    (spelled : record.SpelledAsObject spellings value (.object others true)) :
    ∃ stored, decode (depth + 1) (.object members true) = ofStored kind stored
      ∧ record.decode .stored stored = .ok value := by
  obtain ⟨front, back, rfl⟩ := List.append_of_mem (reordered.mem_iff.mpr List.mem_cons_self)
  have without : (front ++ back).Perm others :=
    (List.perm_cons _).mp (List.perm_middle.symm.trans reordered)
  have stored := Record.spelledAsObject_of_perm spelled without
  have accepts := Record.accepts_asObject law apart deep
  refine ⟨.object (front ++ back) true, ?_, accepts.decode .stored stored⟩
  have fitting : Outline.membersFit depth (front ++ back) = true := by
    have whole := accepts.fits stored
    simp only [Outline.fits, Bool.and_true] at whole
    exact whole
  exact decode_withKind fitting (fun member listed => other member (without.mem_iff.mp listed)) kind

theorem decode_of_spelledWithKind (law : spellings.Accepted depth)
    (apart : record.fields.names.Nodup) (deep : 100 ≤ depth) {kind : Kind} {value : τ}
    {outline : Outline} (spelled : SpelledWithKind record spellings kind value outline) :
    ∃ stored, decode (depth + 1) outline = ofStored kind stored
      ∧ record.decode .stored stored = .ok value := by
  obtain ⟨members, others, rfl, reordered, other, spelled⟩ := spelled
  exact decode_of_kindAmong law apart deep reordered other
    (Record.spelledAsObject_of_spelled spelled)

end

theorem decode_of_spelled {node : Node} {outline : Outline} (spelled : node.Spelled outline) :
    decode deepest outline = .ok node := by
  cases node with
  | symbol documented =>
    have law : Symbol.spellings.Accepted 126 := Symbol.spellings_accepted (by decide)
    obtain ⟨stored, sorted, decoded⟩ :=
      decode_of_spelledWithKind law (by decide) (by decide) spelled
    rw [deepest, sorted, ofStored, decoded]
    rfl
  | article page =>
    have law : Article.spellings.Accepted 126 := Article.spellings_accepted
    obtain ⟨stored, sorted, decoded⟩ :=
      decode_of_spelledWithKind law (by decide) (by decide) spelled
    rw [deepest, sorted, ofStored, decoded]
    rfl

theorem spelledWithKind_encode {τ : Type} {record : Record τ}
    {spellings : record.fields.Spellings} (own : tag ∉ record.fields.names) (kind : Kind)
    {value : τ} (written : spellings.AsWritten (record.toRow value)) :
    SpelledWithKind record spellings kind value (tagged record kind value).outline := by
  refine ⟨_, _, rfl, .refl _, ?_, Record.spelled_encode written⟩
  exact fun member listed => Key.ne_of_notMem own (Fields.key_mem_names _ _ member listed)

theorem spelled_encode {node : Node} (proper : node.IsProper) :
    node.Spelled (encode node).outline := by
  cases node with
  | symbol documented =>
    exact spelledWithKind_encode (by decide) .symbol (Symbol.asWritten proper)
  | article page => exact spelledWithKind_encode (by decide) .article (Article.asWritten page)

/-- A declaration that shows on two platforms. -/
def samplePair : PlatformDeclaration := ⟨[none, some .macOS], ⟨[.keyword "func"]⟩⟩

def sampleSymbol : Symbol :=
  (Symbol.bare ⟨"doc://Kit/f"⟩ .swift).withDeclaration .fallback samplePair

/-- The pair with the members of its objects turned round, and an unknown one in the fragment. -/
def turnedPair : Value :=
  .object [
    ("declaration", .object [("fragments", .array [.object [
      ("kit", .array [.null, .object [("kind", .natural 1)]]), ("preciseIdentifier", .null),
      ("spelling", .text "func"), ("kind", .text "keyword")]])]),
    ("platforms", .array [.null, .text "macOS"])]

/-- The symbol with its members turned round, with an unknown one, and with everything spelled that
may be left out. -/
def turnedSymbol : Value :=
  .object [
    ("abstract", .text "f()"), ("overloadsVariants", .object []),
    ("declarationVariants", .object [("", .array [turnedPair])]),
    ("sourceLanguage", .object [("name", .text "Swift"), ("id", .text "swift")]),
    ("title", .text ""), ("preciseIdentifier", .null), ("reference", .text "doc://Kit/f"),
    ("kind", .text "symbol")]

theorem turnedSymbol_within : turnedSymbol.Within 9 := by
  unfold turnedSymbol turnedPair
  repeat' first
    | exact .null
    | exact .text _
    | exact .natural (by decide)
    | refine .object ?_
    | refine .array ?_
    | refine List.forall_mem_cons.mpr ⟨?_, ?_⟩
    | exact List.forall_mem_nil _

theorem samplePair_turned : samplePair.Spelled turnedPair.outline := by
  have unknown : Fragment.record.fields.IsForeign (.named "kit",
      .array [.null, .object [(.named "kind", .number (some (.integer 1)))] true] true) :=
    ⟨⟨"kit", rfl, by decide⟩, by decide⟩
  have fragment : Fragment.Spelled (.keyword "func") _ :=
    ⟨_, _, [_], rfl, .refl _, .spelled rfl <| .spelled rfl <| .spelled rfl rfl,
      List.forall_mem_singleton.mpr unknown⟩
  have turned := Record.spelled_of_perm fragment (List.reverse_perm _)
  have declaration : Declaration.Spelled ⟨[.keyword "func"]⟩ _ :=
    ⟨_, _, [], rfl, .refl _, .spelled ⟨_, rfl, .cons turned .nil⟩ rfl, List.forall_mem_nil _⟩
  have pair : samplePair.Spelled _ :=
    ⟨_, _, [], rfl, .refl _, .spelled rfl <| .spelled declaration rfl, List.forall_mem_nil _⟩
  exact Record.spelled_of_perm pair (List.reverse_perm'.mp (.refl _))

theorem sampleSymbol_turned : (Node.symbol sampleSymbol).Spelled turnedSymbol.outline := by
  have language : SourceLanguage.Spelled .swift _ :=
    ⟨_, _, [], rfl, .refl _, .spelled rfl <| .spelled rfl rfl, List.forall_mem_nil _⟩
  have turned := Record.spelled_of_perm language (List.reverse_perm _)
  have declarations : TraitMap.Spelled PlatformDeclaration.Spelled.ForList
      sampleSymbol.declarationVariants
      (.object [(.named "", .array [turnedPair.outline] true)] true) :=
    ⟨_, _, rfl, .refl _, .cons ⟨⟨"", rfl, rfl⟩, _, rfl, .cons samplePair_turned .nil⟩ .nil⟩
  have overloads : TraitMap.Spelled OverloadGroup.Spelled sampleSymbol.overloadsVariants _ :=
    ⟨[], [], rfl, .refl _, .nil⟩
  have unknown : Symbol.record.fields.IsForeign (.named "abstract", .text (some "f()")) :=
    ⟨⟨"abstract", rfl, by decide⟩, by decide⟩
  have record : Symbol.record.Spelled Symbol.spellings sampleSymbol _ :=
    ⟨_, _, [_], rfl, .refl _, .spelled rfl <| .spelled rfl <| .spelled rfl <| .spelled turned <|
      .spelled declarations <| .spelled overloads rfl, List.forall_mem_singleton.mpr unknown⟩
  refine ⟨_, _, rfl, ?_, ?_, record⟩
  · exact List.reverse_perm'.mp (.refl _)
  · decide

end Node

end DeclarationDocs
