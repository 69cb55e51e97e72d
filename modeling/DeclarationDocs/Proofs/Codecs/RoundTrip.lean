import DeclarationDocs.Codecs.Config
import DeclarationDocs.Codecs.Section
import DeclarationDocs.Store
import DeclarationDocs.Proofs.Codecs.CanonicalForms
import DeclarationDocs.Proofs.Json.Spellings

/-!
# Round trips

Every type that has a written form is read back from it, up to canonical forms. The laws follow the
types: records are put together from their fields, and a node is a record behind its kind.

Main statement: `format_roundTrips`.
-/

namespace DeclarationDocs

open Json

/-! ## Declarations -/

theorem Reference.returns (depth : Nat) : codec.Returns depth :=
  Codec.along_restores (Codec.text_returns depth) mk text _ (fun _ => rfl) (fun _ => rfl)

theorem Platform.returns (depth : Nat) : codec.Returns depth :=
  Codec.along_restores (Codec.text_returns depth) mk name _ (fun _ => rfl) (fun _ => rfl)

theorem Platform.optional_returns (depth : Nat) : codec.optional.Returns depth :=
  Codec.optional_returns (returns depth) fun _ same => nomatch same

theorem SourceLanguage.returns (depth : Nat) : record.codec.Returns (depth + 1) :=
  Record.restores
    (.required (Codec.text_returns depth) <| .required (Codec.text_returns depth) .done)
    (by decide) fun _ => rfl

theorem FragmentKind.returns (depth : Nat) : codec.Returns depth :=
  Codec.variants_returns mem_all name_injective depth

theorem Fragment.returns (depth : Nat) : record.codec.Returns (depth + 1) :=
  Record.restores
    (.required (FragmentKind.returns depth) <| .required (Codec.text_returns depth) <|
      .optional (Codec.text_returns depth) (fun _ same => nomatch same) .done)
    (by decide) fun _ => rfl

theorem Declaration.returns (depth : Nat) : record.codec.Returns (depth + 3) :=
  Record.restores (.required (Codec.list_returns (Fragment.returns depth)) .done)
    (by decide) fun _ => rfl

theorem PlatformDeclaration.returns (depth : Nat) : record.codec.Returns (depth + 4) :=
  Record.restores
    (.required (Codec.list_returns (Platform.optional_returns (depth + 2))) <|
      .required (Declaration.returns depth) .done)
    (by decide) fun _ => rfl

theorem PlatformDeclaration.variants_restore (depth : Nat) :
    variantsCodec.Restores TraitMap.canonical (depth + 6) :=
  TraitMap.restores (Codec.list_returns (returns depth))

/-! ## Nodes -/

theorem OverloadGroup.returns (depth : Nat) : record.codec.Returns (depth + 2) :=
  Record.restores
    (.required (Codec.list_returns (Reference.returns depth)) <|
      .required (Codec.index_returns (depth + 1)) .done)
    (by decide) fun _ => rfl

theorem Symbol.restores (depth : Nat) : record.codec.Restores canonical (depth + 7) :=
  Record.restores
    (.required (Reference.returns (depth + 6)) <|
      .optional (Codec.text_returns (depth + 6)) (fun _ same => nomatch same) <|
      .unlessDefault (Codec.text_returns (depth + 6)) rfl <|
      .withDefault (SourceLanguage.returns (depth + 5)) rfl <|
      .unlessDefault (PlatformDeclaration.variants_restore depth) rfl <|
      .unlessDefault (TraitMap.restores (OverloadGroup.returns (depth + 3))) rfl .done)
    (by decide) fun _ => rfl

theorem Article.returns (depth : Nat) : record.codec.Returns (depth + 1) :=
  Record.restores
    (.required (Reference.returns depth) <| .withDefault (Codec.text_returns depth) rfl .done)
    (by decide) fun _ => rfl

namespace Node

theorem Kind.decode_name (kind : Kind) : decode (.text (some kind.name)) = .ok kind := by
  cases kind <;> rfl

/-- Members of other names that fit are stored as they are, and sorting goes on behind them. -/
theorem sortMembers_append {room : Nat} {members : List (Key × Outline)}
    (fitting : Outline.membersFit room members = true)
    (other : ∀ member ∈ members, member.1 ≠ .named tag) (rest : List (Key × Outline))
    (kind : Option Kind) :
    sortMembers room (members ++ rest) kind
      = (sortMembers room rest kind).map fun sorted => (sorted.1, members ++ sorted.2) := by
  induction members with
  | nil =>
    rw [List.nil_append]
    cases sortMembers room rest kind <;> rfl
  | cons member members ih =>
    obtain ⟨key, value⟩ := member
    obtain ⟨first, others⟩ := List.forall_mem_cons.mp other
    obtain ⟨⟨⟨name, same⟩, firstFits⟩, othersFit⟩ :=
      List.forall_mem_cons.mp (Outline.membersFit_iff.mp fitting)
    obtain rfl : key = .named name := same
    have different : name ≠ tag := fun same => first (congrArg Key.named same)
    rw [List.cons_append, sortMembers, if_neg different, if_pos firstFits,
      ih (Outline.membersFit_iff.mpr othersFit) others]
    cases sortMembers room rest kind <;> rfl

/-- The kind is found among the members, and the node is decoded from the others. -/
theorem decode_withKind {depth : Nat} {front back : List (Key × Outline)}
    (fitting : Outline.membersFit depth (front ++ back) = true)
    (other : ∀ member ∈ front ++ back, member.1 ≠ .named tag) (kind : Kind) :
    decode (depth + 1) (.object (front ++ (.named tag, .text (some kind.name)) :: back) true)
      = ofStored kind (.object (front ++ back) true) := by
  obtain ⟨frontFits, backFits⟩ := List.forall_mem_append.mp (Outline.membersFit_iff.mp fitting)
  obtain ⟨frontOther, backOther⟩ := List.forall_mem_append.mp other
  have behind : sortMembers depth back (some kind) = .ok (some kind, back) := by
    have sorted :=
      sortMembers_append (Outline.membersFit_iff.mpr backFits) backOther [] (some kind)
    rw [List.append_nil] at sorted
    rw [sorted, sortMembers]
    exact congrArg (fun rest => Except.ok (some kind, rest)) (List.append_nil back)
  have sorted : sortMembers depth (front ++ (.named tag, .text (some kind.name)) :: back) none
      = .ok (some kind, front ++ back) := by
    rw [sortMembers_append (Outline.membersFit_iff.mpr frontFits) frontOther, sortMembers,
      if_pos rfl, if_neg (by decide), Kind.decode_name]
    show Except.map _ (sortMembers depth back (some kind)) = _
    rw [behind]
    rfl
  show (sortMembers depth _ none >>= _) = _
  rw [sorted]
  rfl

/-- A record behind the kind that it is of. -/
def tagged {τ : Type} (record : Record τ) (kind : Kind) (value : τ) : Value :=
  .object ((tag, .text kind.name) :: record.members value)

theorem within_members {τ : Type} {record : Record τ} {canonical : τ → τ} {depth : Nat}
    (law : record.codec.Restores canonical (depth + 1)) (value : τ) :
    ∀ member ∈ record.members value, member.2.Within depth := by
  cases law.within value with
  | object each => exact each

theorem within_tagged {τ : Type} {record : Record τ} {canonical : τ → τ} {depth : Nat}
    (law : record.codec.Restores canonical (depth + 1)) (kind : Kind) (value : τ) :
    (tagged record kind value).Within (depth + 1) :=
  .object (List.forall_mem_cons.mpr ⟨.text _, within_members law value⟩)

/-- The kind is read at once, and the record is decoded from what is stored behind it. -/
theorem decode_tagged {τ : Type} {record : Record τ} {canonical : τ → τ} {depth : Nat}
    (law : record.codec.Restores canonical (depth + 1)) (own : tag ∉ record.fields.names)
    (kind : Kind) (value : τ) :
    decode (depth + 1) (tagged record kind value).outline
      = ofStored kind (record.codec.encode value).outline := by
  have fitting : Outline.membersFit depth (Value.memberOutlines (record.members value)) = true :=
    Value.membersFit_memberOutlines fun member listed =>
      (within_members law value member listed).fits
  have other : ∀ member ∈ Value.memberOutlines (record.members value), member.1 ≠ .named tag :=
    fun member listed => Key.ne_of_notMem own (Fields.key_mem_names _ _ member listed)
  exact @decode_withKind depth [] _ fitting other kind

theorem canonical_of_ofStored {kind : Kind} {stored : Outline} {node : Node}
    (done : ofStored kind stored = .ok node) : node.canonical = node := by
  cases kind with
  | symbol =>
    obtain ⟨documented, decoded, rfl⟩ := exists_of_map_ok done
    exact congrArg Node.symbol ((Symbol.restores 0).canonical_of_yields documented ⟨_, _, decoded⟩)
  | article =>
    obtain ⟨page, -, rfl⟩ := exists_of_map_ok done
    rfl

theorem canonical_of_decode {room : Nat} {outline : Outline} {node : Node}
    (done : decode room outline = .ok node) : node.canonical = node := by
  cases outline with
  | object members closed =>
    obtain ⟨⟨kind, stored⟩, -, done⟩ := exists_of_bind_ok done
    -- the object has to be closed and to have named its kind
    cases closed with
    | false => cases done
    | true =>
      cases kind with
      | none => cases done
      | some kind => exact canonical_of_ofStored done
  | array items closed =>
    cases items with
    | nil => cases closed <;> cases done
    | cons first items =>
      obtain ⟨kind, -, done⟩ := exists_of_bind_ok done
      split at done
      next => exact canonical_of_ofStored done
      next => cases done
  | null | boolean | number | text | broken => cases done

/-- A node with room for its containers is read back as its canonical form. -/
theorem restores (depth : Nat) :
    (⟨encode, fun _ => decode (depth + 7)⟩ : Codec Node).Restores canonical (depth + 7) where
  within node := by
    cases node with
    | symbol documented => exact within_tagged (Symbol.restores depth) .symbol documented
    | article page => exact within_tagged (Article.returns (depth + 6)) .article page
  decode_encode source node := by
    cases node with
    | symbol documented =>
      have law := Symbol.restores depth
      have stored : decode (depth + 7) (tagged Symbol.record .symbol documented).outline = _ :=
        decode_tagged law (by decide) .symbol documented
      exact stored.trans (congrArg (Except.map Node.symbol) (law.decode_encode .stored documented))
    | article page =>
      have law := Article.returns (depth + 6)
      have stored : decode (depth + 7) (tagged Article.record .article page).outline = _ :=
        decode_tagged law (by decide) .article page
      exact stored.trans (congrArg (Except.map Node.article) (law.decode_encode .stored page))
  canonical_of_yields node := by
    rintro ⟨source, outline, done⟩
    exact canonical_of_decode done

theorem codec_restores : codec.Restores canonical deepest := restores 120

theorem listCodec_restores : listCodec.Restores (List.map canonical) deepest :=
  Codec.list_restores (restores 119)

end Node

/-! ## Sections -/

theorem LinkedToken.returns (depth : Nat) : record.codec.Returns (depth + 1) :=
  Record.restores
    (.required (FragmentKind.returns depth) <| .required (Codec.text_returns depth) <|
      .optional (Reference.returns depth) (fun _ same => nomatch same) .done)
    (by decide) fun _ => rfl

theorem SiblingRow.returns (depth : Nat) : record.codec.Returns (depth + 3) :=
  Record.restores
    (.required (Reference.returns (depth + 2)) <|
      .required (Codec.list_returns (LinkedToken.returns depth)) .done)
    (by decide) fun _ => rfl

theorem SiblingBlock.returns (depth : Nat) : record.codec.Returns (depth + 5) :=
  Record.restores
    (.required (Codec.list_returns (SiblingRow.returns depth)) <|
      .required (Codec.index_returns (depth + 4)) .done)
    (by decide) fun _ => rfl

theorem Entry.returns (depth : Nat) : record.codec.Returns (depth + 6) :=
  Record.restores
    (.required (Codec.list_returns (Codec.text_returns (depth + 4))) <|
      .required (Codec.list_returns (Platform.optional_returns (depth + 4))) <|
      .required (Codec.list_returns (LinkedToken.returns (depth + 3))) <|
      .optional (SiblingBlock.returns depth) (fun _ same => nomatch same) .done)
    (by decide) fun _ => rfl

theorem Section.returns (depth : Nat) : record.codec.Returns (depth + 8) :=
  Record.restores (.required (Codec.list_returns (Entry.returns depth)) .done)
    (by decide) fun _ => rfl

/-! ## Configurations -/

theorem DiagnosticLevel.name_injective {a b : DiagnosticLevel} (same : a.name = b.name) :
    a = b := by
  cases a <;> cases b <;> first | rfl | exact absurd same (by decide)

theorem DiagnosticLevel.returns (depth : Nat) : codec.Returns depth :=
  Codec.variants_returns mem_all name_injective depth

theorem LogConfig.returns (depth : Nat) : record.codec.Returns (depth + 1) :=
  Record.restores (.withDefault (Codec.text_returns depth) rfl .done) (by decide) fun _ => rfl

theorem Config.returns (depth : Nat) : record.codec.Returns (depth + 2) :=
  Record.restores
    (.withDefault (DiagnosticLevel.returns (depth + 1)) rfl <|
      .withDefault (LogConfig.returns depth) rfl .done)
    (by decide) fun _ => rfl

/-! ## Round trips -/

/-- The text of a value is read as its canonical form, which is the value itself exactly when the
value is proper. What a text is read as is proper; its own text is read as the same value, which has
the same text again. -/
structure Json.Codec.RoundTrips {α : Type} (codec : Codec α) (canonical : α → α)
    (IsProper : α → Prop) : Prop where
  read_write : ∀ a, codec.read (codec.write a) = .ok (canonical a)
  read_write_iff : ∀ a, codec.read (codec.write a) = .ok a ↔ IsProper a
  proper_of_read : ∀ text a, codec.read text = .ok a → IsProper a
  stable : ∀ text a, codec.read text = .ok a →
    codec.read (codec.write a) = .ok a
      ∧ (codec.read (codec.write a)).map codec.write = .ok (codec.write a)

/-- Every value is read back from its text. -/
abbrev Json.Codec.IsFaithful {α : Type} (codec : Codec α) : Prop :=
  codec.RoundTrips id fun _ => True

theorem Json.Codec.Restores.roundTrips {α : Type} {codec : Codec α} {canonical : α → α}
    {depth : Nat} (law : codec.Restores canonical depth) {IsProper : α → Prop}
    (proper_iff : ∀ a, canonical a = a ↔ IsProper a) : codec.RoundTrips canonical IsProper where
  read_write := law.read_write
  read_write_iff a := by
    rw [law.read_write, Except.ok.injEq]
    exact proper_iff a
  proper_of_read text a done := (proper_iff a).mp (law.canonical_of_read done)
  stable text a done := by
    have again : codec.read (codec.write a) = .ok a := by
      rw [law.read_write, law.canonical_of_read done]
    exact ⟨again, congrArg (Except.map codec.write) again⟩

theorem Json.Codec.Returns.isFaithful {α : Type} {codec : Codec α} {depth : Nat}
    (law : codec.Returns depth) : codec.IsFaithful :=
  law.roundTrips fun _ => ⟨fun _ => trivial, fun _ => rfl⟩

/-- Reading undoes writing for every type of the format, with every language of an empty identifier
turned into the fallback trait; a written list of nodes fills a store as its canonical nodes do. -/
theorem format_roundTrips :
    Reference.codec.IsFaithful ∧ Platform.codec.IsFaithful
      ∧ Trait.codec.RoundTrips Trait.canonical Trait.IsProper
      ∧ SourceLanguage.record.codec.IsFaithful ∧ FragmentKind.codec.IsFaithful
      ∧ Fragment.record.codec.IsFaithful ∧ Declaration.record.codec.IsFaithful
      ∧ PlatformDeclaration.record.codec.IsFaithful
      ∧ PlatformDeclaration.variantsCodec.RoundTrips TraitMap.canonical TraitMap.IsProper
      ∧ OverloadGroup.record.codec.IsFaithful
      ∧ Symbol.record.codec.RoundTrips Symbol.canonical Symbol.IsProper
      ∧ Article.record.codec.IsFaithful
      ∧ Node.codec.RoundTrips Node.canonical Node.IsProper
      ∧ Node.listCodec.RoundTrips (List.map Node.canonical) (∀ node ∈ ·, node.IsProper)
      ∧ LinkedToken.record.codec.IsFaithful ∧ SiblingRow.record.codec.IsFaithful
      ∧ SiblingBlock.record.codec.IsFaithful ∧ Entry.record.codec.IsFaithful
      ∧ Section.record.codec.IsFaithful ∧ DiagnosticLevel.codec.IsFaithful
      ∧ LogConfig.record.codec.IsFaithful ∧ Config.record.codec.IsFaithful
      ∧ ∀ nodes, Store.read (Node.listCodec.write nodes)
          = .ok (Store.ofNodes (nodes.map Node.canonical)) := by
  refine ⟨(Reference.returns 0).isFaithful, (Platform.returns 0).isFaithful,
    (Trait.restores 0).roundTrips Trait.canonical_eq_iff, (SourceLanguage.returns 0).isFaithful,
    (FragmentKind.returns 0).isFaithful, (Fragment.returns 0).isFaithful,
    (Declaration.returns 0).isFaithful, (PlatformDeclaration.returns 0).isFaithful,
    (PlatformDeclaration.variants_restore 0).roundTrips TraitMap.canonical_eq_iff,
    (OverloadGroup.returns 0).isFaithful, (Symbol.restores 0).roundTrips Symbol.canonical_eq_iff,
    (Article.returns 0).isFaithful, Node.codec_restores.roundTrips Node.canonical_eq_iff,
    Node.listCodec_restores.roundTrips Node.map_canonical_eq_iff,
    (LinkedToken.returns 0).isFaithful, (SiblingRow.returns 0).isFaithful,
    (SiblingBlock.returns 0).isFaithful, (Entry.returns 0).isFaithful,
    (Section.returns 0).isFaithful, (DiagnosticLevel.returns 0).isFaithful,
    (LogConfig.returns 0).isFaithful, (Config.returns 0).isFaithful, fun nodes => ?_⟩
  rw [Store.read, Node.listCodec_restores.read_write]

end DeclarationDocs
