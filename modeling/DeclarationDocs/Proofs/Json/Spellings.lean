import DeclarationDocs.Proofs.Json.Laws

/-!
# Spellings

A value may be spelled in more ways than the one in which it is written. The members of a record
come in any order, members of names that the record does not know may stand among them, and a member
that is left out when it is written may be spelled all the same. A codec accepts a spelling when it reads
it as the value, both while the text is being read and after it has been stored; the law is lifted
through lists and records.

Main statements: `Record.accepts_asObject`, and `Record.accepts` for records of which only that is
left out which is left out when they are written.
-/

namespace DeclarationDocs.Json

/-! ## Outlines that fit -/

namespace Outline

theorem allFit_iff {room : Nat} {items : List Outline} :
    allFit room items = true ↔ ∀ item ∈ items, item.fits room = true := by
  induction items with
  | nil => simp [allFit]
  | cons item rest ih => simp [allFit, ih]

theorem membersFit_iff {room : Nat} {members : List (Key × Outline)} :
    membersFit room members = true
      ↔ ∀ member ∈ members, (∃ name, member.1 = .named name) ∧ member.2.fits room = true := by
  induction members with
  | nil => simp [membersFit]
  | cons member rest ih =>
    obtain ⟨key, value⟩ := member
    cases key with
    | named name => simp [membersFit, ih]
    | unreadable => simp [membersFit]

mutual

theorem fits_of_le {room wider : Nat} (le : room ≤ wider) :
    ∀ {outline : Outline}, outline.fits room = true → outline.fits wider = true
  | .array items closed, fitting => by
    obtain _ | room := room
    · simp [fits] at fitting
    · obtain ⟨wider, rfl⟩ : ∃ w, wider = w + 1 := ⟨wider - 1, by omega⟩
      simp only [fits, Bool.and_eq_true] at fitting ⊢
      exact ⟨allFit_of_le (by omega) fitting.1, fitting.2⟩
  | .object members closed, fitting => by
    obtain _ | room := room
    · simp [fits] at fitting
    · obtain ⟨wider, rfl⟩ : ∃ w, wider = w + 1 := ⟨wider - 1, by omega⟩
      simp only [fits, Bool.and_eq_true] at fitting ⊢
      exact ⟨membersFit_of_le (by omega) fitting.1, fitting.2⟩
  | .null, _ => by cases wider <;> rfl
  | .boolean _, _ => by cases wider <;> rfl
  | .number _, fitting => by cases room <;> cases wider <;> exact fitting
  | .text _, fitting => by cases room <;> cases wider <;> exact fitting
  | .broken, fitting => by cases room <;> cases fitting

theorem allFit_of_le {room wider : Nat} (le : room ≤ wider) :
    ∀ {items : List Outline}, allFit room items = true → allFit wider items = true
  | [], _ => by simp [allFit]
  | item :: rest, fitting => by
    simp only [allFit, Bool.and_eq_true] at fitting ⊢
    exact ⟨fits_of_le le fitting.1, allFit_of_le le fitting.2⟩

theorem membersFit_of_le {room wider : Nat} (le : room ≤ wider) :
    ∀ {members : List (Key × Outline)},
      membersFit room members = true → membersFit wider members = true
  | [], _ => by simp [membersFit]
  | (.named name, value) :: rest, fitting => by
    simp only [membersFit, Bool.and_eq_true] at fitting ⊢
    exact ⟨fits_of_le le fitting.1, membersFit_of_le le fitting.2⟩
  | (.unreadable, value) :: rest, fitting => by simp [membersFit] at fitting

end

mutual

/-- What may be stored may also be passed over. -/
theorem isWhole_of_fits :
    ∀ {outline : Outline} {room : Nat}, outline.fits room = true → outline.isWhole = true
  | .array items closed, room, fitting => by
    obtain _ | room := room
    · simp [fits] at fitting
    · simp only [fits, isWhole, Bool.and_eq_true] at fitting ⊢
      exact ⟨areWhole_of_allFit fitting.1, fitting.2⟩
  | .object members closed, room, fitting => by
    obtain _ | room := room
    · simp [fits] at fitting
    · simp only [fits, isWhole, Bool.and_eq_true] at fitting ⊢
      exact ⟨membersAreWhole_of_membersFit fitting.1, fitting.2⟩
  | .null, _, _ => rfl
  | .boolean _, _, _ => rfl
  | .number _, _, _ => rfl
  | .text _, _, _ => rfl
  | .broken, room, fitting => by cases room <;> cases fitting

theorem areWhole_of_allFit :
    ∀ {items : List Outline} {room : Nat}, allFit room items = true → areWhole items = true
  | [], _, _ => by simp [areWhole]
  | item :: rest, room, fitting => by
    simp only [allFit, areWhole, Bool.and_eq_true] at fitting ⊢
    exact ⟨isWhole_of_fits fitting.1, areWhole_of_allFit fitting.2⟩

theorem membersAreWhole_of_membersFit :
    ∀ {members : List (Key × Outline)} {room : Nat},
      membersFit room members = true → membersAreWhole members = true
  | [], _, _ => by simp [membersAreWhole]
  | (.named name, value) :: rest, room, fitting => by
    simp only [membersFit, membersAreWhole, Bool.and_eq_true] at fitting ⊢
    exact ⟨isWhole_of_fits fitting.1, membersAreWhole_of_membersFit fitting.2⟩
  | (.unreadable, value) :: rest, room, fitting => by simp [membersFit] at fitting

end

end Outline

/-! ## Spellings -/

/-- How the values of a type may be spelled. -/
abbrev Spelling (α : Type) := α → Outline → Prop

namespace Codec

variable {α : Type}

/-- Values spelled as they are written. -/
def Written (codec : Codec α) : Spelling α := fun a outline => outline = (codec.encode a).outline

/-- The spellings of a value are read as the value, while the text is being read and after it has
been stored, and have containers at most `depth` deep. -/
structure Accepts (codec : Codec α) (spelling : Spelling α) (depth : Nat) : Prop where
  fits : ∀ {a outline}, spelling a outline → outline.fits depth = true
  decode : ∀ source {a outline}, spelling a outline → codec.decode source outline = .ok a

/-- A codec accepts a spelling that allows less. -/
theorem Accepts.mono {codec : Codec α} {spelling narrower : Spelling α} {depth : Nat}
    (law : codec.Accepts spelling depth)
    (within : ∀ a outline, narrower a outline → spelling a outline) :
    codec.Accepts narrower depth where
  fits spelled := law.fits (within _ _ spelled)
  decode source _ _ spelled := law.decode source (within _ _ spelled)

theorem accepts_written {codec : Codec α} {depth : Nat} (law : codec.Returns depth) :
    codec.Accepts codec.Written depth where
  fits := by
    rintro a _ rfl
    exact (law.within a).fits
  decode := by
    rintro source a _ rfl
    exact law.decode_encode source a

end Codec

namespace Spelling

variable {α : Type}

/-- A list of spelled items. -/
def ForList (spelling : Spelling α) : Spelling (List α) := fun items outline =>
  ∃ outlines, outline = .array outlines true ∧ List.Forall₂ spelling items outlines

theorem forall₂_encode {spelling : Spelling α} {codec : Codec α} {items : List α}
    (each : ∀ item ∈ items, spelling item (codec.encode item).outline) :
    List.Forall₂ spelling items (Value.outlines (items.map codec.encode)) := by
  induction items with
  | nil => exact .nil
  | cons item items ih =>
    obtain ⟨first, others⟩ := List.forall_mem_cons.mp each
    exact .cons first (ih others)

/-- A list is spelled as it is written when its items are. -/
theorem forList_encode {spelling : Spelling α} {codec : Codec α} {items : List α}
    (each : ∀ item ∈ items, spelling item (codec.encode item).outline) :
    spelling.ForList items (codec.list.encode items).outline :=
  ⟨_, rfl, forall₂_encode each⟩

end Spelling

namespace Codec.Accepts

variable {α : Type} {codec : Codec α} {spelling : Spelling α} {depth : Nat}

theorem mapM_decode (law : codec.Accepts spelling depth) (source : Source) {items : List α}
    {outlines : List Outline} (each : List.Forall₂ spelling items outlines) :
    outlines.mapM (codec.decode source) = .ok items :=
  mapM_eq_ok_iff.mpr (each.imp fun _ _ spelled => law.decode source spelled).flip

theorem forall_fits (law : codec.Accepts spelling depth) {items : List α} {outlines : List Outline}
    (each : List.Forall₂ spelling items outlines) :
    ∀ outline ∈ outlines, outline.fits depth = true := by
  induction each with
  | nil => simp
  | cons first _ ih => exact List.forall_mem_cons.mpr ⟨law.fits first, ih⟩

theorem list (law : codec.Accepts spelling depth) :
    codec.list.Accepts spelling.ForList (depth + 1) where
  fits := by
    rintro items _ ⟨outlines, rfl, each⟩
    have inside := Outline.allFit_iff.mpr (law.forall_fits each)
    simp only [Outline.fits, inside, Bool.and_self]
  decode := by
    rintro source items _ ⟨outlines, rfl, each⟩
    show (outlines.mapM (codec.decode source) >>= _) = _
    rw [law.mapM_decode source each]
    rfl

end Codec.Accepts

/-! ## Records -/

namespace Fields

/-- A spelling for the values of each field. -/
inductive Spellings : {ρ σ : Type} → Fields ρ σ → Type 1 where
  | done : Spellings .done
  | field {α ρ σ : Type} {head : Field α} {rest : Fields ρ σ} (spelling : Spelling α)
    (others : Spellings rest) : Spellings (.field head rest)

namespace Spellings

/-- The members that spell a row, in the order of the fields. What is left out when the row is
written may be left out here too, and may also be spelled. -/
def Spells : {ρ σ : Type} → {fields : Fields ρ σ} → fields.Spellings → ρ →
    List (Key × Outline) → Prop
  | _, _, _, .done, _, members => members = []
  | _, _, .field head _, .field spelling others, (value, row), members =>
    (head.isOmitted value = true ∧ others.Spells row members)
      ∨ ∃ outline rest, members = (.named head.name, outline) :: rest
        ∧ spelling value outline ∧ others.Spells row rest

namespace Spells

variable {α ρ σ : Type} {head : Field α} {rest : Fields ρ σ} {spelling : Spelling α}
  {others : rest.Spellings} {value : α} {row : ρ} {members : List (Key × Outline)}

theorem omitted (left : head.isOmitted value = true) (behind : others.Spells row members) :
    (field spelling others : (Fields.field head rest).Spellings).Spells (value, row) members :=
  .inl ⟨left, behind⟩

theorem spelled {outline : Outline} (here : spelling value outline)
    (behind : others.Spells row members) :
    (field spelling others : (Fields.field head rest).Spellings).Spells (value, row)
      ((.named head.name, outline) :: members) :=
  .inr ⟨outline, members, rfl, here, behind⟩

end Spells

/-- The members that determine a row, in the order of the fields. A member may be left out when what
stands for it then is its value. -/
def Determines : {ρ σ : Type} → {fields : Fields ρ σ} → fields.Spellings → ρ →
    List (Key × Outline) → Prop
  | _, _, _, .done, _, members => members = []
  | _, _, .field head _, .field spelling others, (value, row), members =>
    (head.whenAbsent = some value ∧ others.Determines row members)
      ∨ ∃ outline rest, members = (.named head.name, outline) :: rest
        ∧ spelling value outline ∧ others.Determines row rest

/-- Only what comes back on reading is left out of a spelled row. -/
theorem determines_of_spells {ρ σ : Type} {fields : Fields ρ σ} {spellings : fields.Spellings}
    {row : ρ} {members : List (Key × Outline)} (spelled : spellings.Spells row members) :
    spellings.Determines row members := by
  induction spellings generalizing members with
  | done => exact spelled
  | @field _ _ _ head rest spelling others ih =>
    obtain ⟨value, row⟩ := row
    rcases spelled with ⟨omitted, behind⟩ | ⟨outline, more, rfl, said, behind⟩
    · exact .inl ⟨head.absent_of_omitted value omitted, ih behind⟩
    · exact .inr ⟨outline, more, rfl, said, ih behind⟩

/-- The spellings of every field are accepted. -/
inductive Accepted (depth : Nat) :
    {ρ σ : Type} → {fields : Fields ρ σ} → fields.Spellings → Prop where
  | done : Accepted depth .done
  | field {α ρ σ : Type} {head : Field α} {rest : Fields ρ σ} {spelling : Spelling α}
    {others : rest.Spellings} (first : head.codec.Accepts spelling depth)
    (law : Accepted depth others) :
    Accepted depth (.field spelling others : (Fields.field head rest).Spellings)

/-- The values of a row are spelled as they are written. -/
def AsWritten : {ρ σ : Type} → {fields : Fields ρ σ} → fields.Spellings → ρ → Prop
  | _, _, _, .done, _ => True
  | _, _, .field head _, .field spelling others, (value, row) =>
    spelling value (head.codec.encode value).outline ∧ others.AsWritten row

end Spellings

/-- A member that a record does not know: its name is none of the record's, its numbers and strings
can be read, and its containers are at most 100 deep. -/
def IsForeign {ρ σ : Type} (fields : Fields ρ σ) (member : Key × Outline) : Prop :=
  (∃ name, member.1 = .named name ∧ name ∉ fields.names) ∧ member.2.fits 100 = true

end Fields

/-- A record spelled as an object: its members in any order, with foreign members among them. -/
def Record.Spelled {τ : Type} (record : Record τ) (spellings : record.fields.Spellings) :
    Spelling τ := fun value outline =>
  ∃ members own foreign, outline = .object members true ∧ members.Perm (own ++ foreign)
    ∧ spellings.Spells (record.toRow value) own ∧ ∀ member ∈ foreign, record.fields.IsForeign member

/-- A record spelled as an object: its members in any order, with foreign members among them. A member
may be left out when its default stands for it. -/
def Record.SpelledAsObject {τ : Type} (record : Record τ) (spellings : record.fields.Spellings) :
    Spelling τ := fun value outline =>
  ∃ members own foreign, outline = .object members true ∧ members.Perm (own ++ foreign)
    ∧ spellings.Determines (record.toRow value) own
    ∧ ∀ member ∈ foreign, record.fields.IsForeign member

namespace Fields

variable {ρ σ : Type}

theorem accept?_eq_none (source : Source) {name : String} (value : Outline) (fields : Fields ρ σ)
    (unknown : name ∉ fields.names) (slots : σ) :
    fields.accept? source name value slots = none := by
  induction fields with
  | done => rfl
  | field head rest ih =>
    obtain ⟨slot, slots⟩ := slots
    obtain ⟨other, unknown⟩ := not_or.mp (mt List.mem_cons.mpr unknown)
    simp only [accept?, if_neg (Ne.symm other), ih unknown, Option.map_none]

theorem acceptAll_append (source : Source) (fields : Fields ρ σ)
    (first second : List (Key × Outline)) (slots : σ) :
    fields.acceptAll source (first ++ second) slots
      = (fields.acceptAll source first slots).bind (fields.acceptAll source second) := by
  induction first generalizing slots with
  | nil => rfl
  | cons member first ih =>
    obtain ⟨key, value⟩ := member
    cases key with
    | unreadable => rfl
    | named name =>
      simp only [List.cons_append, acceptAll]
      cases fields.accept? source name value slots with
      | none =>
        dsimp only
        split
        next => exact ih slots
        next => rfl
      | some outcome =>
        cases outcome with
        | error e => rfl
        | ok slots => exact ih slots

/-- Members of unknown names are passed over. -/
theorem acceptAll_unknown (source : Source) (fields : Fields ρ σ) {members : List (Key × Outline)}
    (slots : σ)
    (unknown : ∀ member ∈ members, ∃ name, member.1 = .named name ∧ name ∉ fields.names)
    (whole : ∀ member ∈ members, member.2.isWhole = true) :
    fields.acceptAll source members slots = .ok slots := by
  induction members with
  | nil => rfl
  | cons member members ih =>
    obtain ⟨⟨name, first, other⟩, others⟩ := List.forall_mem_cons.mp unknown
    obtain ⟨firstWhole, othersWhole⟩ := List.forall_mem_cons.mp whole
    obtain ⟨key, value⟩ := member
    obtain rfl : key = .named name := first
    rw [acceptAll, accept?_eq_none source value fields other]
    exact (if_pos firstWhole).trans (ih others othersWhole)

/-- A field takes in the one member of its name, and the other fields go on as without it. -/
theorem acceptAll_field {α : Type} {source : Source} {head : Field α} {rest : Fields ρ σ}
    {front back : List (Key × Outline)} {outline : Outline} {value : α} {slots slots' : σ}
    (unknown : head.name ∉ rest.names) (whole : outline.isWhole = true)
    (other : ∀ member ∈ front ++ back, member.1 ≠ .named head.name)
    (decoded : head.codec.decode source outline = .ok value)
    (accepted : rest.acceptAll source (front ++ (.named head.name, outline) :: back) slots
      = .ok slots') :
    (Fields.field head rest).acceptAll source (front ++ (.named head.name, outline) :: back)
      (none, slots) = .ok (some value, slots') := by
  obtain ⟨inFront, behind⟩ := List.forall_mem_append.mp other
  rw [acceptAll_append] at accepted ⊢
  obtain ⟨between, first, second⟩ := exists_of_bind_ok accepted
  rw [acceptAll, accept?_eq_none source outline rest unknown] at second
  simp only [whole, if_true] at second
  rw [acceptAll_past source head rest none slots inFront, first]
  show (Fields.field head rest).acceptAll source (_ :: back) (none, between) = _
  rw [acceptAll, accept?, if_pos rfl, decoded]
  show (Fields.field head rest).acceptAll source back (some value, between) = _
  rw [acceptAll_past source head rest (some value) between behind, second]
  rfl

end Fields

namespace Fields.Spellings

variable {ρ σ : Type} {fields : Fields ρ σ} {spellings : fields.Spellings} {depth : Nat} {row : ρ}

theorem key_of_determines {own : List (Key × Outline)} (determined : spellings.Determines row own) :
    ∀ member ∈ own, ∃ name ∈ fields.names, member.1 = .named name := by
  induction spellings generalizing own with
  | done =>
    obtain rfl : own = [] := determined
    simp
  | @field _ _ _ head rest spelling others ih =>
    obtain ⟨value, row⟩ := row
    have later : ∀ {members}, others.Determines row members → ∀ member ∈ members,
        ∃ name ∈ (Fields.field head rest).names, member.1 = .named name := by
      intro members determined member listed
      obtain ⟨name, known, same⟩ := ih determined member listed
      exact ⟨name, List.mem_cons_of_mem _ known, same⟩
    rcases determined with ⟨-, determined⟩ | ⟨outline, more, rfl, -, determined⟩
    · exact later determined
    · exact List.forall_mem_cons.mpr ⟨⟨_, List.mem_cons_self, rfl⟩, later determined⟩

theorem spells_members (written : spellings.AsWritten row) :
    spellings.Spells row (Value.memberOutlines (fields.members row)) := by
  induction spellings with
  | done => rfl
  | @field _ _ _ head rest spelling others ih =>
    obtain ⟨value, row⟩ := row
    obtain ⟨first, written⟩ := written
    by_cases omitted : head.isOmitted value = true
    · rw [members, if_pos omitted]
      exact .omitted omitted (ih written)
    · rw [members, if_neg omitted]
      exact .spelled first (ih written)

theorem fits_of_determines (law : spellings.Accepted depth) {own : List (Key × Outline)}
    (determined : spellings.Determines row own) : ∀ member ∈ own, member.2.fits depth = true := by
  induction law generalizing own with
  | done =>
    obtain rfl : own = [] := determined
    simp
  | field first _ ih =>
    obtain ⟨value, row⟩ := row
    rcases determined with ⟨-, determined⟩ | ⟨outline, more, rfl, said, determined⟩
    · exact ih determined
    · exact List.forall_mem_cons.mpr ⟨first.fits said, ih determined⟩

/-- The members of the later fields and the foreign ones have other names than the first field. -/
theorem key_ne_of_determines {α : Type} {head : Field α} {own others : List (Key × Outline)}
    (fresh : head.name ∉ fields.names) (determined : spellings.Determines row own)
    (foreign : ∀ member ∈ others, ∃ name, member.1 = .named name
      ∧ name ∉ (Fields.field head fields).names) :
    ∀ member ∈ own ++ others, member.1 ≠ .named head.name := by
  intro member listed same
  rcases List.mem_append.mp listed with known | unknown
  · exact Key.ne_of_notMem fresh (key_of_determines determined member known) same
  · obtain ⟨name, named, unknown⟩ := foreign member unknown
    obtain rfl := Key.named.inj (named.symm.trans same)
    exact unknown List.mem_cons_self

/-- The members that determine a row fill it in, in any order and with members of other names among
them. -/
theorem acceptAll_of_determines (law : spellings.Accepted depth) (apart : fields.names.Nodup)
    (source : Source) {members own others : List (Key × Outline)}
    (determined : spellings.Determines row own) (reordered : members.Perm (own ++ others))
    (foreign : ∀ member ∈ others, ∃ name, member.1 = .named name ∧ name ∉ fields.names)
    (whole : ∀ member ∈ members, member.2.isWhole = true) :
    ∃ slots, fields.acceptAll source members fields.noSlots = .ok slots
      ∧ fields.settle slots = .ok row := by
  induction law generalizing own others with
  | done =>
    obtain rfl : own = [] := determined
    refine ⟨(), acceptAll_unknown source .done () (fun member listed => ?_) whole, rfl⟩
    exact foreign member (reordered.mem_iff.mp listed)
  | @field _ _ _ head rest spelling spellings first law ih =>
    obtain ⟨value, row⟩ := row
    obtain ⟨fresh, apart⟩ := List.nodup_cons.mp apart
    have outside : ∀ member ∈ others, ∃ name, member.1 = .named name ∧ name ∉ rest.names := by
      intro member listed
      obtain ⟨name, same, unknown⟩ := foreign member listed
      exact ⟨name, same, fun known => unknown (List.mem_cons_of_mem _ known)⟩
    rcases determined with ⟨absent, determined⟩ | ⟨outline, more, rfl, said, determined⟩
    · -- no member is the field's, and the default stands in for it
      obtain ⟨slots, accepted, settled⟩ := ih apart determined reordered outside
      have other : ∀ member ∈ members, member.1 ≠ .named head.name := fun member listed =>
        key_ne_of_determines fresh determined foreign member (reordered.mem_iff.mp listed)
      refine ⟨(none, slots), ?_, ?_⟩
      · exact (acceptAll_past source head rest none _ other).trans (by rw [accepted]; rfl)
      · simp only [settle, Option.none_or, absent, settled]
        rfl
    · -- one member is the field's, and for the other fields it is a foreign one
      obtain ⟨front, back, rfl⟩ := List.append_of_mem (reordered.mem_iff.mpr List.mem_cons_self)
      have without : (front ++ back).Perm (more ++ others) :=
        (List.perm_cons _).mp (List.perm_middle.symm.trans reordered)
      have other : ∀ member ∈ front ++ back, member.1 ≠ .named head.name := fun member listed =>
        key_ne_of_determines fresh determined foreign member (without.mem_iff.mp listed)
      have beside : ∀ member ∈ (.named head.name, outline) :: others,
          ∃ name, member.1 = .named name ∧ name ∉ rest.names :=
        List.forall_mem_cons.mpr ⟨⟨head.name, rfl, fresh⟩, outside⟩
      obtain ⟨slots, accepted, settled⟩ :=
        ih apart determined (reordered.trans List.perm_middle.symm) beside
      have here := whole (.named head.name, outline) (List.mem_append_right _ List.mem_cons_self)
      refine ⟨(some value, slots), ?_, ?_⟩
      · exact acceptAll_field fresh here other (first.decode source said) accepted
      · simp only [settle, Option.some_or, settled]
        rfl

end Fields.Spellings

namespace Record

variable {τ : Type} {record : Record τ} {spellings : record.fields.Spellings} {depth : Nat}

theorem membersFit_of_determines (law : spellings.Accepted depth) (deep : 100 ≤ depth) {value : τ}
    {members own foreign : List (Key × Outline)} (reordered : members.Perm (own ++ foreign))
    (determined : spellings.Determines (record.toRow value) own)
    (unknown : ∀ member ∈ foreign, record.fields.IsForeign member) :
    Outline.membersFit depth members = true := by
  refine Outline.membersFit_iff.mpr fun member listed => ?_
  rcases List.mem_append.mp (reordered.mem_iff.mp listed) with known | other
  · obtain ⟨name, -, named⟩ := Fields.Spellings.key_of_determines determined member known
    exact ⟨⟨name, named⟩, Fields.Spellings.fits_of_determines law determined member known⟩
  · obtain ⟨⟨name, named, -⟩, fitting⟩ := unknown member other
    exact ⟨⟨name, named⟩, Outline.fits_of_le deep fitting⟩

/-- The members of a spelled record may be put in any other order. -/
theorem spelled_of_perm {value : τ} {members shuffled : List (Key × Outline)}
    (spelled : record.Spelled spellings value (.object members true))
    (reordered : shuffled.Perm members) :
    record.Spelled spellings value (.object shuffled true) := by
  obtain ⟨_, own, foreign, same, inOrder, spelled, unknown⟩ := spelled
  cases same
  exact ⟨shuffled, own, foreign, rfl, reordered.trans inOrder, spelled, unknown⟩

/-- A record is spelled as it is written when the values of its fields are. -/
theorem spelled_encode {value : τ} (written : spellings.AsWritten (record.toRow value)) :
    record.Spelled spellings value (record.codec.encode value).outline := by
  refine ⟨_, _, [], rfl, ?_, Fields.Spellings.spells_members written, by simp⟩
  rw [List.append_nil]
  rfl

/-- A record is accepted as an object when its fields are accepted in their spellings. -/
theorem accepts_asObject (law : spellings.Accepted depth) (apart : record.fields.names.Nodup)
    (deep : 100 ≤ depth) : record.codec.Accepts (record.SpelledAsObject spellings) (depth + 1) where
  fits := by
    rintro value _ ⟨members, own, foreign, rfl, reordered, determined, unknown⟩
    have inside := membersFit_of_determines law deep reordered determined unknown
    simp only [Outline.fits, inside, Bool.and_self]
  decode := by
    rintro source value _ ⟨members, own, foreign, rfl, reordered, determined, unknown⟩
    have inside := membersFit_of_determines law deep reordered determined unknown
    have whole : ∀ member ∈ members, member.2.isWhole = true := fun member listed =>
      Outline.isWhole_of_fits (Outline.membersFit_iff.mp inside member listed).2
    have outside : ∀ member ∈ foreign, ∃ name, member.1 = .named name
        ∧ name ∉ record.fields.names := fun member listed => (unknown member listed).1
    obtain ⟨slots, accepted, settled⟩ :=
      Fields.Spellings.acceptAll_of_determines law apart source determined reordered outside whole
    have read : record.fields.ofMembers source true members = .ok (record.toRow value) := by
      rw [Fields.ofMembers, accepted]
      exact settled
    show (record.fields.ofMembers source true members).map record.ofRow = _
    rw [read]
    exact congrArg Except.ok (record.ofRow_toRow value)

theorem spelledAsObject_of_perm {value : τ} {members shuffled : List (Key × Outline)}
    (spelled : record.SpelledAsObject spellings value (.object members true))
    (reordered : shuffled.Perm members) :
    record.SpelledAsObject spellings value (.object shuffled true) := by
  obtain ⟨_, own, foreign, same, inOrder, determined, unknown⟩ := spelled
  cases same
  exact ⟨shuffled, own, foreign, rfl, reordered.trans inOrder, determined, unknown⟩

theorem spelledAsObject_of_spelled {value : τ} {outline : Outline}
    (spelled : record.Spelled spellings value outline) :
    record.SpelledAsObject spellings value outline := by
  obtain ⟨members, own, foreign, same, reordered, spelled, unknown⟩ := spelled
  exact ⟨members, own, foreign, same, reordered, Fields.Spellings.determines_of_spells spelled,
    unknown⟩

/-- A record is accepted in its spellings when its fields are accepted in theirs. -/
theorem accepts (law : spellings.Accepted depth) (apart : record.fields.names.Nodup)
    (deep : 100 ≤ depth) : record.codec.Accepts (record.Spelled spellings) (depth + 1) :=
  (accepts_asObject law apart deep).mono fun _ _ => spelledAsObject_of_spelled

end Record

end DeclarationDocs.Json
