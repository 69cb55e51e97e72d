import DeclarationDocs.Proofs.Json.Spellings

/-!
# Objects member by member

An object whose members have different names is read field by field: a field takes its value from
the member of its name, or its default when there is none. The order of the members and what stands
under other names do not matter.

Main statement: `Fields.ofMembers_eq_ok_iff`.
-/

namespace DeclarationDocs.Json

/-! ## Members by name -/

/-- The value of the first member with a name. -/
def memberNamed? (members : List (Key × Outline)) (name : String) : Option Outline :=
  (members.find? (·.1 = .named name)).map Prod.snd

variable {members : List (Key × Outline)} {name : String} {outline : Outline}

theorem memberNamed?_eq_none_iff :
    memberNamed? members name = none ↔ ∀ member ∈ members, member.1 ≠ .named name := by
  unfold memberNamed?
  rw [Option.map_eq_none_iff, List.find?_eq_none]
  simp only [decide_eq_true_eq, ne_eq]

theorem memberNamed?_cons (member : Key × Outline) :
    memberNamed? (member :: members) name
      = if member.1 = .named name then some member.2 else memberNamed? members name := by
  unfold memberNamed?
  by_cases same : member.1 = .named name
  · rw [List.find?_cons_of_pos (by simpa using same), if_pos same]
    rfl
  · rw [List.find?_cons_of_neg (by simpa using same), if_neg same]

/-- A member that is found stands between members of other names, when all names are different. -/
theorem exists_split_of_memberNamed? (apart : (members.map Prod.fst).Nodup)
    (found : memberNamed? members name = some outline) :
    ∃ front back, members = front ++ (.named name, outline) :: back
      ∧ ∀ member ∈ front ++ back, member.1 ≠ .named name := by
  obtain ⟨⟨key, value⟩, first, rfl⟩ := Option.map_eq_some_iff.mp found
  obtain ⟨named, front, back, rfl, -⟩ := List.find?_eq_some_iff_append.mp first
  obtain rfl : key = .named name := by simpa using named
  refine ⟨front, back, rfl, fun member listed same => ?_⟩
  have moved : ((.named name, value) :: (front ++ back)).map Prod.fst |>.Nodup :=
    (List.perm_middle.map Prod.fst).nodup_iff.mp apart
  rw [List.map_cons, List.nodup_cons] at moved
  exact moved.1 (List.mem_map.mpr ⟨member, listed, same⟩)

theorem memberNamed?_eq_some_iff (apart : (members.map Prod.fst).Nodup) :
    memberNamed? members name = some outline ↔ (.named name, outline) ∈ members := by
  constructor
  · intro found
    obtain ⟨front, back, rfl, -⟩ := exists_split_of_memberNamed? apart found
    exact List.mem_append_right _ List.mem_cons_self
  · intro listed
    cases found : memberNamed? members name with
    | none => exact absurd rfl (memberNamed?_eq_none_iff.mp found _ listed)
    | some other =>
      obtain ⟨front, back, rfl, others⟩ := exists_split_of_memberNamed? apart found
      rcases List.mem_cons.mp (List.perm_middle.mem_iff.mp listed) with here | elsewhere
      · rw [(Prod.mk.inj here).2]
      · exact absurd rfl (others _ elsewhere)

/-- The order of the members does not matter. -/
theorem memberNamed?_perm {members' : List (Key × Outline)} (reordered : members.Perm members')
    (apart : (members.map Prod.fst).Nodup) :
    memberNamed? members name = memberNamed? members' name := by
  have apart' := (reordered.map Prod.fst).nodup_iff.mp apart
  refine Option.ext fun outline => ?_
  rw [memberNamed?_eq_some_iff apart, memberNamed?_eq_some_iff apart', reordered.mem_iff]

/-! ## Records -/

/-- The value of a field is read from what is given for it, or it is the default. -/
def Field.ReadFrom {α : Type} (source : Source) (field : Field α) (given : Option Outline)
    (value : α) : Prop :=
  match given with
  | some outline => field.codec.decode source outline = .ok value
  | none => field.whenAbsent = some value

namespace Fields

variable {ρ σ : Type}

/-- The values of the fields, each read from the member of its name. -/
def ReadFrom (source : Source) (members : List (Key × Outline)) :
    {ρ σ : Type} → Fields ρ σ → ρ → Prop
  | _, _, .done, _ => True
  | _, _, .field head rest, (value, row) =>
    head.ReadFrom source (memberNamed? members head.name) value ∧ rest.ReadFrom source members row

/-- When a field and the others have been filled in, the field's member has been read, and the
others have been filled in as without the field. -/
theorem exists_of_acceptAll_field {α : Type} {source : Source} {head : Field α}
    {rest : Fields ρ σ} {front back : List (Key × Outline)} {outline : Outline} {slots : σ}
    {filled : Option α × σ} (unknown : head.name ∉ rest.names) (whole : outline.isWhole = true)
    (other : ∀ member ∈ front ++ back, member.1 ≠ .named head.name)
    (accepted : (Fields.field head rest).acceptAll source
      (front ++ (.named head.name, outline) :: back) (none, slots) = .ok filled) :
    ∃ value slots', filled = (some value, slots') ∧ head.codec.decode source outline = .ok value
      ∧ rest.acceptAll source (front ++ (.named head.name, outline) :: back) slots
        = .ok slots' := by
  obtain ⟨inFront, behind⟩ := List.forall_mem_append.mp other
  rw [acceptAll_append, acceptAll_past source head rest none slots inFront] at accepted
  obtain ⟨_, first, accepted⟩ := exists_of_bind_ok accepted
  obtain ⟨between, before, rfl⟩ := exists_of_map_ok first
  rw [acceptAll, accept?, if_pos rfl] at accepted
  obtain ⟨_, read, accepted⟩ := exists_of_bind_ok accepted
  obtain ⟨value, decoded, rfl⟩ := exists_of_map_ok read
  rw [acceptAll_past source head rest (some value) between behind] at accepted
  obtain ⟨slots', after, rfl⟩ := exists_of_map_ok accepted
  refine ⟨value, slots', rfl, decoded, ?_⟩
  rw [acceptAll_append, before]
  show rest.acceptAll source (_ :: back) between = _
  rw [acceptAll, accept?_eq_none source outline rest unknown]
  exact (if_pos whole).trans after

theorem settle_field_eq_ok_iff {α : Type} {head : Field α} {rest : Fields ρ σ} {slot : Option α}
    {slots : σ} {value : α} {row : ρ} :
    (Fields.field head rest).settle (slot, slots) = .ok (value, row)
      ↔ slot.or head.whenAbsent = some value ∧ rest.settle slots = .ok row := by
  rw [settle]
  cases slot.or head.whenAbsent with
  | none => simp
  | some other =>
    dsimp only
    cases rest.settle slots with
    | error error => simp [Except.map]
    | ok others => simp [Except.map]

/-- The members of different names fill in exactly what the fields read from them. -/
theorem exists_acceptAll_iff {fields : Fields ρ σ} (apart : fields.names.Nodup) (source : Source)
    {members : List (Key × Outline)} (distinct : (members.map Prod.fst).Nodup)
    (named : ∀ member ∈ members, ∃ name, member.1 = .named name)
    (whole : ∀ member ∈ members, member.2.isWhole = true) {row : ρ} :
    (∃ slots, fields.acceptAll source members fields.noSlots = .ok slots
        ∧ fields.settle slots = .ok row)
      ↔ fields.ReadFrom source members row := by
  induction fields with
  | done =>
    have passed : Fields.done.acceptAll source members () = .ok () :=
      acceptAll_unknown source .done () (fun member listed => by
        obtain ⟨name, same⟩ := named member listed
        exact ⟨name, same, List.not_mem_nil⟩) whole
    exact iff_of_true ⟨(), passed, rfl⟩ trivial
  | field head rest ih =>
    obtain ⟨value, row⟩ := row
    obtain ⟨fresh, apart⟩ := List.nodup_cons.mp apart
    rw [ReadFrom, ← ih apart]
    cases found : memberNamed? members head.name with
    | none =>
      -- no member is the field's, and only its default may stand in
      have other := memberNamed?_eq_none_iff.mp found
      have past := acceptAll_past source head rest none rest.noSlots other
      constructor
      · rintro ⟨filled, accepted, settled⟩
        obtain ⟨slots, others, rfl⟩ := exists_of_map_ok (past.symm.trans accepted)
        obtain ⟨absent, behind⟩ := settle_field_eq_ok_iff.mp settled
        exact ⟨absent, slots, others, behind⟩
      · rintro ⟨absent, slots, others, settled⟩
        refine ⟨(none, slots), ?_, settle_field_eq_ok_iff.mpr ⟨absent, settled⟩⟩
        exact past.trans (by rw [others]; rfl)
    | some outline =>
      obtain ⟨front, back, rfl, other⟩ := exists_split_of_memberNamed? distinct found
      have here : outline.isWhole = true :=
        whole _ (List.mem_append_right _ List.mem_cons_self)
      constructor
      · rintro ⟨filled, accepted, settled⟩
        obtain ⟨read, slots, rfl, decoded, others⟩ :=
          exists_of_acceptAll_field fresh here other accepted
        obtain ⟨same, behind⟩ := settle_field_eq_ok_iff.mp settled
        obtain rfl : read = value := Option.some.inj same
        exact ⟨decoded, slots, others, behind⟩
      · rintro ⟨decoded, slots, others, settled⟩
        exact ⟨(some value, slots), acceptAll_field fresh here other decoded others,
          settle_field_eq_ok_iff.mpr ⟨rfl, settled⟩⟩

/-- An object with members of different names is read field by field. -/
theorem ofMembers_eq_ok_iff {fields : Fields ρ σ} (apart : fields.names.Nodup) (source : Source)
    {members : List (Key × Outline)} (distinct : (members.map Prod.fst).Nodup)
    (named : ∀ member ∈ members, ∃ name, member.1 = .named name)
    (whole : ∀ member ∈ members, member.2.isWhole = true) {row : ρ} :
    fields.ofMembers source true members = .ok row ↔ fields.ReadFrom source members row := by
  rw [← exists_acceptAll_iff apart source distinct named whole]
  constructor
  · exact exists_of_bind_ok
  · rintro ⟨slots, accepted, settled⟩
    rw [ofMembers, accepted]
    exact settled

end Fields

end DeclarationDocs.Json
