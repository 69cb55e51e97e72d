import DeclarationDocs.Codecs.ConfigTable
import DeclarationDocs.Proofs.Json.Members
import DeclarationDocs.Proofs.Toml.DistinctKeys

/-!
# JSON counterparts of TOML tables

A JSON value is the counterpart of a TOML item when both have the same content: the same text,
number or truth value, arrays of counterparts in the same order, and objects with the counterparts
of a table's entries in any order. Date-times have no counterpart. How a table is written in TOML
leaves no mark on its counterpart.

Main statements: `Entries.rel_of_sameAs`, on what stands under a name in a table and in its
counterpart, and `Entries.decode_eq_ok_iff_of_sameAs`, on records that are read from a counterpart.
-/

namespace DeclarationDocs.Toml

open Json

mutual

/-- The JSON value is the counterpart of the item. -/
def Item.SameAs : Item → Outline → Prop
  | .text content, outline => outline = .text (some content)
  | .integer value, outline => outline = .number (some (.integer value))
  | .real value, outline => outline = .number (some (.real value))
  | .boolean value, outline => outline = .boolean value
  | .dateTime, _ => False
  | .array items, outline => ∃ outlines, outline = .array outlines true ∧ itemsSame items outlines
  | .inlineTable _ entries, outline => ∃ members inOrder, outline = .object members true
      ∧ members.Perm inOrder ∧ entriesSame entries inOrder
  | .table _ entries, outline => ∃ members inOrder, outline = .object members true
      ∧ members.Perm inOrder ∧ entriesSame entries inOrder
  | .tables elements, outline => ∃ outlines, outline = .array outlines true
      ∧ elementsSame elements outlines

/-- The JSON values are the counterparts of the items of an array. -/
def itemsSame : List Item → List Outline → Prop
  | [], outlines => outlines = []
  | item :: items, outlines => ∃ outline rest, outlines = outline :: rest
      ∧ item.SameAs outline ∧ itemsSame items rest

/-- The members are the counterparts of the entries, in their order. -/
def entriesSame : List (String × Item) → List (Key × Outline) → Prop
  | [], members => members = []
  | (name, item) :: entries, members => ∃ outline rest, members = (.named name, outline) :: rest
      ∧ item.SameAs outline ∧ entriesSame entries rest

/-- The JSON values are the counterparts of the tables of a list. -/
def elementsSame : List (List (String × Item)) → List Outline → Prop
  | [], outlines => outlines = []
  | entries :: elements, outlines => ∃ members inOrder rest, outlines = .object members true :: rest
      ∧ members.Perm inOrder ∧ entriesSame entries inOrder ∧ elementsSame elements rest

end

/-- The members are the counterparts of the entries of a table, in any order. -/
def Entries.SameAs (entries : Entries) (members : List (Key × Outline)) : Prop :=
  ∃ inOrder, members.Perm inOrder ∧ entriesSame entries inOrder

/-- Only a text has a text as its counterpart. -/
theorem Item.sameAs_text_iff {item : Item} {content : String} :
    item.SameAs (.text (some content)) ↔ item = .text content := by
  cases item with
  | text other =>
    rw [Item.SameAs, Outline.text.injEq, Option.some_inj, Item.text.injEq]
    exact eq_comm
  | _ => simp [Item.SameAs]

/-- A table's counterpart is an object. -/
theorem Item.object_of_sameAs {item : Item} {entries : Entries} {outline : Outline}
    (table : item.entries? = some entries) (same : item.SameAs outline) :
    ∃ members, outline = .object members true ∧ entries.SameAs members := by
  cases item with
  | inlineTable origin inner =>
    obtain rfl := Option.some.inj table
    obtain ⟨members, inOrder, rfl, reordered, each⟩ := same
    exact ⟨members, rfl, inOrder, reordered, each⟩
  | table origin inner =>
    obtain rfl := Option.some.inj table
    obtain ⟨members, inOrder, rfl, reordered, each⟩ := same
    exact ⟨members, rfl, inOrder, reordered, each⟩
  | _ => cases table

/-! ## Counterparts are complete -/

theorem membersAreWhole_iff {members : List (Key × Outline)} :
    Outline.membersAreWhole members = true ↔ ∀ member ∈ members, member.2.isWhole = true := by
  induction members with
  | nil => simp [Outline.membersAreWhole]
  | cons member rest ih =>
    obtain ⟨key, value⟩ := member
    simp [Outline.membersAreWhole, ih]

theorem isWhole_object {members inOrder : List (Key × Outline)} (reordered : members.Perm inOrder)
    (whole : Outline.membersAreWhole inOrder = true) :
    (Outline.object members true).isWhole = true := by
  have each := membersAreWhole_iff.mp whole
  have membersWhole : Outline.membersAreWhole members = true :=
    membersAreWhole_iff.mpr fun member listed => each member (reordered.mem_iff.mp listed)
  simp only [Outline.isWhole, membersWhole, Bool.and_self]

mutual

/-- The counterpart of an item may be passed over. -/
theorem Item.isWhole_of_sameAs :
    ∀ {item : Item} {outline : Outline}, item.SameAs outline → outline.isWhole = true
  | .text _, _, same => by simp only [Item.SameAs] at same; subst same; rfl
  | .integer _, _, same => by simp only [Item.SameAs] at same; subst same; rfl
  | .real _, _, same => by simp only [Item.SameAs] at same; subst same; rfl
  | .boolean _, _, same => by simp only [Item.SameAs] at same; subst same; rfl
  | .dateTime, _, same => by simp only [Item.SameAs] at same
  | .array items, _, same => by
    simp only [Item.SameAs] at same
    obtain ⟨outlines, rfl, each⟩ := same
    simp only [Outline.isWhole, areWhole_of_itemsSame each, Bool.and_self]
  | .inlineTable _ entries, _, same => by
    simp only [Item.SameAs] at same
    obtain ⟨members, inOrder, rfl, reordered, each⟩ := same
    exact isWhole_object reordered (membersAreWhole_of_entriesSame each)
  | .table _ entries, _, same => by
    simp only [Item.SameAs] at same
    obtain ⟨members, inOrder, rfl, reordered, each⟩ := same
    exact isWhole_object reordered (membersAreWhole_of_entriesSame each)
  | .tables elements, _, same => by
    simp only [Item.SameAs] at same
    obtain ⟨outlines, rfl, each⟩ := same
    simp only [Outline.isWhole, areWhole_of_elementsSame each, Bool.and_self]

theorem areWhole_of_itemsSame :
    ∀ {items : List Item} {outlines : List Outline}, itemsSame items outlines →
      Outline.areWhole outlines = true
  | [], _, same => by simp only [itemsSame] at same; subst same; rfl
  | item :: items, _, same => by
    simp only [itemsSame] at same
    obtain ⟨outline, rest, rfl, first, others⟩ := same
    simp only [Outline.areWhole, Item.isWhole_of_sameAs first, areWhole_of_itemsSame others,
      Bool.and_self]

theorem membersAreWhole_of_entriesSame :
    ∀ {entries : List (String × Item)} {members : List (Key × Outline)},
      entriesSame entries members → Outline.membersAreWhole members = true
  | [], _, same => by simp only [entriesSame] at same; subst same; rfl
  | (name, item) :: entries, _, same => by
    simp only [entriesSame] at same
    obtain ⟨outline, rest, rfl, first, others⟩ := same
    simp only [Outline.membersAreWhole, Item.isWhole_of_sameAs first,
      membersAreWhole_of_entriesSame others, Bool.and_self]

theorem areWhole_of_elementsSame :
    ∀ {elements : List (List (String × Item))} {outlines : List Outline},
      elementsSame elements outlines → Outline.areWhole outlines = true
  | [], _, same => by simp only [elementsSame] at same; subst same; rfl
  | entries :: elements, _, same => by
    simp only [elementsSame] at same
    obtain ⟨members, inOrder, rest, rfl, reordered, first, others⟩ := same
    simp only [Outline.areWhole, isWhole_object reordered (membersAreWhole_of_entriesSame first),
      areWhole_of_elementsSame others, Bool.and_self]

end

/-! ## Members by name -/

theorem keys_of_entriesSame {entries : Entries} {members : List (Key × Outline)}
    (same : entriesSame entries members) :
    members.map Prod.fst = entries.map fun entry => .named entry.1 := by
  induction entries generalizing members with
  | nil =>
    rw [entriesSame] at same
    rw [same]
    rfl
  | cons entry entries ih =>
    rw [entriesSame] at same
    obtain ⟨outline, rest, rfl, -, others⟩ := same
    rw [List.map_cons, List.map_cons, ih others]

theorem rel_of_entriesSame {entries : Entries} {members : List (Key × Outline)}
    (same : entriesSame entries members) (name : String) :
    Option.Rel Item.SameAs (entries.get? name) (memberNamed? members name) := by
  induction entries generalizing members with
  | nil =>
    rw [entriesSame] at same
    rw [same]
    exact .none
  | cons entry entries ih =>
    rw [entriesSame] at same
    obtain ⟨outline, rest, rfl, first, others⟩ := same
    rw [Entries.get?_cons, memberNamed?_cons]
    by_cases here : entry.1 = name
    · rw [if_pos here, if_pos (congrArg Key.named here)]
      exact .some first
    · rw [if_neg here, if_neg fun equal => here (Key.named.inj equal)]
      exact ih others

namespace Entries

variable {entries : Entries} {members : List (Key × Outline)}

theorem SameAs.named (same : entries.SameAs members) :
    ∀ member ∈ members, ∃ name, member.1 = .named name := by
  obtain ⟨inOrder, reordered, each⟩ := same
  intro member listed
  have known : member.1 ∈ entries.map fun entry => Key.named entry.1 := by
    rw [← keys_of_entriesSame each]
    exact List.mem_map_of_mem (reordered.mem_iff.mp listed)
  obtain ⟨entry, -, key⟩ := List.mem_map.mp known
  exact ⟨entry.1, key.symm⟩

theorem SameAs.whole (same : entries.SameAs members) :
    ∀ member ∈ members, member.2.isWhole = true := by
  obtain ⟨inOrder, reordered, each⟩ := same
  have whole := membersAreWhole_iff.mp (membersAreWhole_of_entriesSame each)
  exact fun member listed => whole member (reordered.mem_iff.mp listed)

theorem SameAs.distinct (same : entries.SameAs members) (apart : (entries.map Prod.fst).Nodup) :
    (members.map Prod.fst).Nodup := by
  obtain ⟨inOrder, reordered, each⟩ := same
  have keys : inOrder.map Prod.fst = (entries.map Prod.fst).map Key.named := by
    rw [keys_of_entriesSame each, List.map_map]
    rfl
  rw [(reordered.map Prod.fst).nodup_iff, keys]
  exact apart.map fun _ _ => Key.named.inj

/-- What stands under a name in a counterpart is the counterpart of what stands there in the
table. -/
theorem rel_of_sameAs (same : entries.SameAs members) (apart : (entries.map Prod.fst).Nodup)
    (name : String) : Option.Rel Item.SameAs (entries.get? name) (memberNamed? members name) := by
  have distinct := same.distinct apart
  obtain ⟨inOrder, reordered, each⟩ := same
  rw [memberNamed?_perm reordered distinct]
  exact rel_of_entriesSame each name

end Entries

/-! ## Records -/

/-- A field with a default is read from a counterpart as the item is read. -/
theorem readFrom_withDefault_iff {ε α : Type} {name : String} {codec : Codec α} {standard : α}
    {source : Source} {item : Option Item} {given : Option Outline}
    (same : Option.Rel Item.SameAs item given) {read : Item → Except ε α} {value : α}
    (alike : ∀ {written : Item} {outline : Outline}, item = some written → written.SameAs outline →
      (codec.decode source outline = .ok value ↔ read written = .ok value)) :
    (Field.withDefault name codec standard).ReadFrom source given value
      ↔ item.elim (.ok standard) read = .ok value := by
  cases same with
  | none =>
    rw [Option.elim_none, Except.ok.injEq]
    exact Option.some_inj
  | some same => exact alike rfl same

/-- A record is read from a table's counterpart field by field. -/
theorem Entries.decode_eq_ok_iff_of_sameAs {entries : Entries} {members : List (Key × Outline)}
    {τ : Type} (record : Record τ) (fieldsApart : record.fields.names.Nodup) (source : Source)
    (same : entries.SameAs members) (apart : (entries.map Prod.fst).Nodup) {value : τ} :
    record.codec.decode source (.object members true) = .ok value
      ↔ ∃ row, record.fields.ReadFrom source members row ∧ record.ofRow row = value := by
  have fieldwise : ∀ row, record.fields.ofMembers source true members = .ok row
      ↔ record.fields.ReadFrom source members row := fun _ =>
    Fields.ofMembers_eq_ok_iff fieldsApart source (same.distinct apart) same.named same.whole
  show (record.fields.ofMembers source true members).map record.ofRow = .ok value ↔ _
  simp only [map_eq_ok_iff, fieldwise]

end DeclarationDocs.Toml
