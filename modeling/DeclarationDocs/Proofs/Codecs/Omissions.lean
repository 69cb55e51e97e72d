import DeclarationDocs.Proofs.Codecs.StoredNodes
import DeclarationDocs.Proofs.Json.Omissions

/-!
# Values that leave something out

A member without a default may be left out of the value itself or of any record in it: in a list, in
a trait map, under an optional member. Wherever it is, nothing is read of the whole value. A node
also has to say its kind.

Main statements: `Lacks.refuses` and `Node.refuses_of_lacks`.
-/

namespace DeclarationDocs

open Json

/-- A member without a default is left out of the value or of a record in it: an object has no member
of its name, or an array ends before it. -/
inductive Lacks : {α : Type} → Codec α → Outline → Prop where
  | member {α τ : Type} {record : Record τ} {position : Nat} {field : Json.Field α}
    {members : List (Key × Outline)} {closed : Bool} (place : record.fields.At position field)
    (required : field.whenAbsent = none)
    (absent : ∀ member ∈ members, member.1 ≠ .named field.name) :
    Lacks record.codec (.object members closed)
  | item {α τ : Type} {record : Record τ} {position : Nat} {field : Json.Field α}
    {items : List Outline} {closed : Bool} (place : record.fields.At position field)
    (required : field.whenAbsent = none) (ended : items.length ≤ position) :
    Lacks record.codec (.array items closed)
  | inMember {α τ : Type} {record : Record τ} {position : Nat} {field : Json.Field α}
    {members : List (Key × Outline)} {closed : Bool} {value : Outline}
    (place : record.fields.At position field) (listed : (.named field.name, value) ∈ members)
    (inside : Lacks field.codec value) : Lacks record.codec (.object members closed)
  | inItem {α τ : Type} {record : Record τ} {position : Nat} {field : Json.Field α}
    {items : List Outline} {closed : Bool} {value : Outline}
    (place : record.fields.At position field) (listed : items[position]? = some value)
    (inside : Lacks field.codec value) : Lacks record.codec (.array items closed)
  | inList {α : Type} {codec : Codec α} {items : List Outline} {closed : Bool} {value : Outline}
    (listed : value ∈ items) (inside : Lacks codec value) : Lacks codec.list (.array items closed)
  | inOptional {α : Type} {codec : Codec α} {value : Outline} (inside : Lacks codec value) :
    Lacks codec.optional value
  | inMap {α : Type} {codec : Codec α} {members : List (Key × Outline)} {closed : Bool}
    {member : Key × Outline} (listed : member ∈ members) (inside : Lacks codec member.2) :
    Lacks (TraitMap.codec codec) (.object members closed)

theorem TraitMap.exists_readMembers_eq_error {α : Type} {codec : Codec α} {source : Source}
    {members : List (Key × Outline)} {member : Key × Outline} (listed : member ∈ members)
    (refused : ∃ error, codec.decode source member.2 = .error error) (map : TraitMap α) :
    ∃ error, readMembers codec source members map = .error error := by
  induction members generalizing map with
  | nil => cases listed
  | cons first members ih =>
    obtain ⟨key, outline⟩ := first
    cases key with
    | unreadable => exact ⟨_, rfl⟩
    | named name =>
      rcases List.mem_cons.mp listed with rfl | later
      · exact exists_bind_eq_error (.inl refused)
      · exact exists_bind_eq_error (.inr fun _ _ => ih later _)

namespace Lacks

variable {α : Type} {codec : Codec α} {outline : Outline}

theorem ne_null (lacks : Lacks codec outline) : outline ≠ .null := by
  induction lacks with
  | inOptional _ ih => exact ih
  | _ => exact nofun

/-- Nothing is read of a value that leaves something out. -/
theorem refuses (lacks : Lacks codec outline) : codec.Refuses outline := by
  induction lacks with
  | member place required absent => exact Record.refuses_withoutMember place required absent _
  | item place required ended => exact Record.refuses_tooShort place required ended _
  | inMember place listed _ ih => exact Record.refuses_member place listed ih _
  | inItem place listed _ ih => exact Record.refuses_item place listed ih _
  | inList listed _ ih => exact Codec.list_refuses listed ih _
  | inOptional inside ih => exact Codec.optional_refuses inside.ne_null ih
  | inMap listed _ ih =>
    exact fun source => exists_bind_eq_error
      (.inl (TraitMap.exists_readMembers_eq_error listed (ih source) ∅))

end Lacks

/-- Nothing is read of a text whose value is refused. -/
theorem Json.Codec.Refuses.read {α : Type} {codec : Codec α} {text : String}
    (refused : codec.Refuses (Document.ofText text).root) :
    ∃ error, codec.read text = .error error :=
  exists_bind_eq_error (.inl (refused .live))

/-! ## Nodes -/

namespace Node

/-- The record of the kind leaves something out. -/
def Kind.Lacks : Kind → Outline → Prop
  | .symbol, outline => DeclarationDocs.Lacks Symbol.record.codec outline
  | .article, outline => DeclarationDocs.Lacks Article.record.codec outline

/-- A node leaves out its kind, or its record leaves something out: that is the object of the other
members, or the array of the items behind the kind. -/
def Lacks : Outline → Prop
  | .object members _ => (∀ member ∈ members, member.1 ≠ .named tag)
    ∨ ∃ kind : Kind, (.named tag, .text (some kind.name)) ∈ members
      ∧ kind.Lacks (.object (members.filter (·.1 ≠ .named tag)) true)
  | .array [] _ => True
  | .array (first :: items) _ => ∃ kind : Kind, first = .text (some kind.name)
    ∧ kind.Lacks (.array items true)
  | _ => False

theorem exists_ofStored_eq_error {kind : Kind} {stored : Outline} (lacks : kind.Lacks stored) :
    ∃ error, ofStored kind stored = .error error := by
  cases kind with
  | symbol => exact exists_map_eq_error (lacks.refuses .stored) symbol
  | article => exact exists_map_eq_error (lacks.refuses .stored) article

/-- Nothing is read of a node that leaves something out. -/
theorem refuses_of_lacks {outline : Outline} (lacks : Lacks outline) : codec.Refuses outline := by
  intro _
  show ∃ error, decode deepest outline = .error error
  cases outline with
  | object members closed =>
    refine exists_bind_eq_error (.inr fun sorted done => ?_)
    obtain ⟨kind', stored⟩ := sorted
    obtain rfl : stored = _ := stored_of_sortMembers done
    cases closed with
    | false => exact ⟨_, rfl⟩
    | true =>
      rcases lacks with untagged | ⟨kind, listed, lacks⟩
      · obtain rfl : kind' = none := kind_of_untagged untagged done
        exact ⟨_, rfl⟩
      · obtain rfl : kind' = some kind := kind_of_sortMembers listed done
        exact exists_ofStored_eq_error lacks
  | array items closed =>
    cases items with
    | nil => cases closed <;> exact ⟨_, rfl⟩
    | cons first items =>
      obtain ⟨kind, rfl, lacks⟩ := lacks
      refine exists_bind_eq_error (.inr fun kind' decoded => ?_)
      rw [Kind.decode_name] at decoded
      cases decoded
      split
      · exact exists_ofStored_eq_error lacks
      · exact ⟨_, rfl⟩
  | null | boolean | number | text | broken => exact lacks.elim

end Node

end DeclarationDocs
