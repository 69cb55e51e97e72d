import DeclarationDocs.Proofs.Json.Complaints

/-!
# Members that have to be there

A record is refused when a member without a default is left out, as an object as well as an array
that ends too early. A list or a record is also refused when a part of it is, whatever else it
holds.

Main statements: `Record.refuses_withoutMember`, `Record.refuses_tooShort`, `Record.refuses_member`
and `Record.refuses_item`.
-/

namespace DeclarationDocs.Json

/-- The codec reads nothing from the outline. -/
def Codec.Refuses {α : Type} (codec : Codec α) (outline : Outline) : Prop :=
  ∀ source, ∃ error, codec.decode source outline = .error error

namespace Codec

variable {α : Type} {codec : Codec α}

theorem list_refuses {items : List Outline} {item : Outline} (listed : item ∈ items)
    (refused : codec.Refuses item) (closed : Bool) : codec.list.Refuses (.array items closed) :=
  fun source => exists_bind_eq_error (.inl (exists_mapM_eq_error listed (refused source)))

theorem optional_refuses {outline : Outline} (present : outline ≠ .null)
    (refused : codec.Refuses outline) : codec.optional.Refuses outline := by
  intro source
  rw [decode_optional codec source present]
  exact exists_map_eq_error (refused source) some

end Codec

namespace Fields

/-- The field at a position, which is the first of its name. -/
inductive At : {ρ σ α : Type} → Fields ρ σ → Nat → Field α → Prop where
  | head {α ρ σ : Type} {head : Field α} {rest : Fields ρ σ} : At (.field head rest) 0 head
  | rest {α β ρ σ : Type} {head : Field β} {rest : Fields ρ σ} {position : Nat} {field : Field α}
    (other : head.name ≠ field.name) (behind : At rest position field) :
    At (.field head rest) (position + 1) field

/-- Nothing has been read of the field at a position. -/
def IsUnreadAt : {ρ σ : Type} → Fields ρ σ → Nat → σ → Prop
  | _, _, .done, _, _ => False
  | _, _, .field _ _, 0, (slot, _) => slot = none
  | _, _, .field _ rest, position + 1, (_, slots) => rest.IsUnreadAt position slots

variable {α ρ σ : Type} {fields : Fields ρ σ} {position : Nat} {field : Field α}

/-! ## Objects -/

theorem isUnreadAt_noSlots (place : fields.At position field) :
    fields.IsUnreadAt position fields.noSlots := by
  induction place with
  | head => rfl
  | rest _ _ ih => exact ih

theorem isUnreadAt_of_accept? {source : Source} {name : String} {value : Outline} {slots slots' : σ}
    (place : fields.At position field) (other : name ≠ field.name)
    (unread : fields.IsUnreadAt position slots)
    (accepted : fields.accept? source name value slots = some (.ok slots')) :
    fields.IsUnreadAt position slots' := by
  induction place with
  | head =>
    obtain ⟨slot, slots⟩ := slots
    simp only [accept?, if_neg (Ne.symm other)] at accepted
    obtain ⟨outcome, -, mapped⟩ := Option.map_eq_some_iff.mp accepted
    obtain ⟨slots, -, rfl⟩ := exists_of_map_ok mapped
    exact unread
  | @rest _ _ _ _ head rest position field _ _ ih =>
    obtain ⟨slot, slots⟩ := slots
    by_cases same : head.name = name
    · -- the member is an earlier field's, and the later slots stay as they are
      simp only [accept?, if_pos same] at accepted
      cases slot with
      | some read => cases accepted
      | none =>
        obtain ⟨value, -, rfl⟩ := exists_of_map_ok (Option.some.inj accepted)
        exact unread
    · simp only [accept?, if_neg same] at accepted
      obtain ⟨outcome, taken, mapped⟩ := Option.map_eq_some_iff.mp accepted
      obtain ⟨slots, rfl, rfl⟩ := exists_of_map_ok mapped
      exact ih other unread taken

theorem isUnreadAt_of_acceptAll {source : Source} {members : List (Key × Outline)}
    {slots slots' : σ} (place : fields.At position field)
    (absent : ∀ member ∈ members, member.1 ≠ .named field.name)
    (unread : fields.IsUnreadAt position slots)
    (accepted : fields.acceptAll source members slots = .ok slots') :
    fields.IsUnreadAt position slots' := by
  induction members generalizing slots with
  | nil =>
    cases accepted
    exact unread
  | cons member members ih =>
    obtain ⟨key, value⟩ := member
    obtain ⟨first, others⟩ := List.forall_mem_cons.mp absent
    cases key with
    | unreadable => cases accepted
    | named name =>
      have other : name ≠ field.name := fun same => first (congrArg Key.named same)
      rw [acceptAll] at accepted
      split at accepted
      next outcome taken =>
        obtain ⟨between, rfl, accepted⟩ := exists_of_bind_ok accepted
        exact ih others (isUnreadAt_of_accept? place other unread taken) accepted
      next =>
        split at accepted
        · exact ih others unread accepted
        · cases accepted

theorem exists_settle_eq_error {slots : σ} (place : fields.At position field)
    (required : field.whenAbsent = none) (unread : fields.IsUnreadAt position slots) :
    ∃ error, fields.settle slots = .error error := by
  induction place with
  | head =>
    obtain ⟨slot, slots⟩ := slots
    obtain rfl : slot = none := unread
    rw [settle, Option.none_or, required]
    exact ⟨_, rfl⟩
  | rest _ _ ih =>
    obtain ⟨slot, slots⟩ := slots
    rw [settle]
    split
    · exact exists_map_eq_error (ih required unread) _
    · exact ⟨_, rfl⟩

theorem exists_accept?_eq_error {source : Source} {value : Outline}
    (place : fields.At position field)
    (refused : ∃ error, field.codec.decode source value = .error error) (slots : σ) :
    ∃ error, fields.accept? source field.name value slots = some (.error error) := by
  induction place with
  | head =>
    obtain ⟨slot, slots⟩ := slots
    simp only [accept?]
    cases slot with
    | some read => exact ⟨_, rfl⟩
    | none =>
      obtain ⟨error, refused⟩ := exists_map_eq_error refused fun read => (some read, slots)
      exact ⟨error, congrArg some refused⟩
  | rest other _ ih =>
    obtain ⟨slot, slots⟩ := slots
    obtain ⟨error, failed⟩ := ih refused slots
    simp only [accept?, if_neg other, failed]
    exact ⟨error, rfl⟩

theorem exists_acceptAll_eq_error {source : Source} {members : List (Key × Outline)}
    {value : Outline} (place : fields.At position field)
    (listed : (.named field.name, value) ∈ members)
    (refused : ∃ error, field.codec.decode source value = .error error) (slots : σ) :
    ∃ error, fields.acceptAll source members slots = .error error := by
  obtain ⟨before, after, rfl⟩ := List.append_of_mem listed
  rw [acceptAll_append]
  refine exists_bind_eq_error (.inr fun between _ => ?_)
  obtain ⟨error, failed⟩ := exists_accept?_eq_error place refused between
  rw [acceptAll, failed]
  exact ⟨error, rfl⟩

/-! ## Arrays -/

/-- Nothing is read of an array with no item for a field that has to be there, or with one that is
refused. -/
theorem exists_ofItems_eq_error {source : Source} (short : Nat → Problem) (closed : Bool)
    {items : List Outline} (place : fields.At position field)
    (refused : (items[position]? = none ∧ field.whenAbsent = none)
      ∨ ∃ item, items[position]? = some item
        ∧ ∃ error, field.codec.decode source item = .error error)
    (start : Nat) : ∃ error, fields.ofItems source short closed start items = .error error := by
  induction place generalizing items start with
  | head =>
    cases items with
    | nil =>
      obtain ⟨-, required⟩ | ⟨item, listed, -⟩ := refused
      · rw [ofItems, required]
        split <;> exact ⟨_, rfl⟩
      · cases listed
    | cons first items =>
      obtain ⟨absent, -⟩ | ⟨item, listed, refused⟩ := refused
      · cases absent
      · cases listed
        exact exists_bind_eq_error (.inl refused)
  | @rest _ _ _ _ head rest position field _ _ ih =>
    cases items with
    | nil =>
      obtain ⟨-, required⟩ | ⟨item, listed, -⟩ := refused
      · rw [ofItems]
        split
        · split
          · exact exists_map_eq_error (ih (.inl ⟨rfl, required⟩) _) _
          · exact ⟨_, rfl⟩
        · exact ⟨_, rfl⟩
      · cases listed
    | cons first items =>
      rw [List.getElem?_cons_succ] at refused
      exact exists_bind_eq_error (.inr fun value _ => exists_bind_eq_error (.inl (ih refused _)))

end Fields

/-! ## Records -/

namespace Record

variable {α τ : Type} {record : Record τ} {position : Nat} {field : Field α}

/-- An object has to have every member without a default. -/
theorem refuses_withoutMember (place : record.fields.At position field)
    (required : field.whenAbsent = none) {members : List (Key × Outline)}
    (absent : ∀ member ∈ members, member.1 ≠ .named field.name) (closed : Bool) :
    record.codec.Refuses (.object members closed) := by
  intro source
  refine exists_map_eq_error (exists_bind_eq_error (.inr fun slots accepted => ?_)) record.ofRow
  have unread := Fields.isUnreadAt_of_acceptAll place absent (Fields.isUnreadAt_noSlots place) accepted
  split
  · exact Fields.exists_settle_eq_error place required unread
  · exact ⟨_, rfl⟩

/-- An array has to go on to every member without a default. -/
theorem refuses_tooShort (place : record.fields.At position field)
    (required : field.whenAbsent = none) {items : List Outline} (ended : items.length ≤ position)
    (closed : Bool) : record.codec.Refuses (.array items closed) := by
  intro source
  have absent : items[position]? = none := List.getElem?_eq_none ended
  exact exists_bind_eq_error
    (.inl (Fields.exists_ofItems_eq_error _ closed place (.inl ⟨absent, required⟩) 0))

theorem refuses_member (place : record.fields.At position field) {members : List (Key × Outline)}
    {value : Outline} (listed : (.named field.name, value) ∈ members)
    (refused : field.codec.Refuses value) (closed : Bool) :
    record.codec.Refuses (.object members closed) := fun source =>
  exists_map_eq_error (exists_bind_eq_error
    (.inl (Fields.exists_acceptAll_eq_error place listed (refused source) _))) record.ofRow

theorem refuses_item (place : record.fields.At position field) {items : List Outline}
    {item : Outline} (listed : items[position]? = some item) (refused : field.codec.Refuses item)
    (closed : Bool) : record.codec.Refuses (.array items closed) := fun source =>
  exists_bind_eq_error (.inl (Fields.exists_ofItems_eq_error _ closed place
    (.inr ⟨item, listed, refused source⟩) 0))

end Record

end DeclarationDocs.Json
