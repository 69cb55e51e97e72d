import DeclarationDocs.Proofs.Json.Spellings

/-!
# Records spelled by position

A record may be spelled as an array of its members in the declared order as well as an object. In an
object any member may be left out when its default stands for it; in an array a member can only be
left out with all the members behind it. Each record in a value may be spelled either way.

Main statement: `Record.accepts_eitherWay`.
-/

namespace DeclarationDocs.Json

namespace Fields

/-! ## Rows as items -/

/-- The items that are written for the values of the fields: none is left out. -/
def items : {ρ σ : Type} → Fields ρ σ → ρ → List Value
  | _, _, .done, _ => []
  | _, _, .field head rest, (value, row) => head.codec.encode value :: rest.items row

namespace Spellings

/-- The items that spell a row. They may end before a field when what stands for it and for each
field behind it is its value. -/
def Lists : {ρ σ : Type} → {fields : Fields ρ σ} → fields.Spellings → ρ → List Outline → Prop
  | _, _, _, .done, _, items => items = []
  | _, _, .field head _, .field spelling others, (value, row), items =>
    (items = [] ∧ head.whenAbsent = some value ∧ others.Lists row [])
      ∨ ∃ item rest, items = item :: rest ∧ spelling value item ∧ others.Lists row rest

variable {ρ σ : Type} {fields : Fields ρ σ} {spellings : fields.Spellings} {depth : Nat} {row : ρ}

theorem lists_items (written : spellings.AsWritten row) :
    spellings.Lists row (Value.outlines (fields.items row)) := by
  induction spellings with
  | done => rfl
  | field spelling others ih =>
    obtain ⟨value, row⟩ := row
    exact .inr ⟨_, _, rfl, written.1, ih written.2⟩

theorem fits_of_lists (law : spellings.Accepted depth) {items : List Outline}
    (listed : spellings.Lists row items) : ∀ item ∈ items, item.fits depth = true := by
  induction law generalizing items with
  | done =>
    obtain rfl : items = [] := listed
    simp
  | field first _ ih =>
    rcases listed with ⟨rfl, -, -⟩ | ⟨item, rest, rfl, said, behind⟩
    · simp
    · exact List.forall_mem_cons.mpr ⟨first.fits said, ih behind⟩

/-- The items that spell a row are read as the row, and none is left over. -/
theorem ofItems_of_lists (law : spellings.Accepted depth) (source : Source)
    (short : Nat → Problem) (position : Nat) {items : List Outline}
    (listed : spellings.Lists row items) :
    fields.ofItems source short true position items = .ok (row, []) := by
  induction law generalizing items position with
  | done =>
    obtain rfl : items = [] := listed
    rfl
  | field first _ ih =>
    obtain ⟨value, row⟩ := row
    rcases listed with ⟨rfl, absent, behind⟩ | ⟨item, rest, rfl, said, behind⟩
    · rw [ofItems, if_pos rfl, absent]
      dsimp only
      rw [ih (position + 1) behind]
      rfl
    · rw [ofItems, first.decode source said, ih (position + 1) behind]
      rfl

end Spellings

end Fields

/-! ## Both forms -/

namespace Record

variable {τ : Type} {record : Record τ} {spellings : record.fields.Spellings} {depth : Nat}

/-- A record written as the array of its members. -/
def positional (record : Record τ) (value : τ) : Value :=
  .array (record.fields.items (record.toRow value))

/-- A record spelled as an array: its members in the declared order. -/
def SpelledAsArray (record : Record τ) (spellings : record.fields.Spellings) : Spelling τ :=
  fun value outline =>
    ∃ items, outline = .array items true ∧ spellings.Lists (record.toRow value) items

/-- A record spelled as an object or as an array. -/
def SpelledEitherWay (record : Record τ) (spellings : record.fields.Spellings) : Spelling τ :=
  fun value outline => record.SpelledAsObject spellings value outline
    ∨ record.SpelledAsArray spellings value outline

theorem accepts_asArray (law : spellings.Accepted depth) :
    record.codec.Accepts (record.SpelledAsArray spellings) (depth + 1) where
  fits := by
    rintro value _ ⟨items, rfl, listed⟩
    have inside := Outline.allFit_iff.mpr (Fields.Spellings.fits_of_lists law listed)
    simp only [Outline.fits, inside, Bool.and_self]
  decode := by
    rintro source value _ ⟨items, rfl, listed⟩
    have read := Fields.Spellings.ofItems_of_lists law source record.tooShort 0 listed
    show (record.fields.ofItems source record.tooShort true 0 items >>= _) = _
    rw [read]
    exact congrArg Except.ok (record.ofRow_toRow value)

/-- A record is accepted either way when its fields are accepted in their spellings. -/
theorem accepts_eitherWay (law : spellings.Accepted depth) (apart : record.fields.names.Nodup)
    (deep : 100 ≤ depth) :
    record.codec.Accepts (record.SpelledEitherWay spellings) (depth + 1) where
  fits
    | .inl asObject => (accepts_asObject law apart deep).fits asObject
    | .inr asArray => (accepts_asArray law).fits asArray
  decode source _ _
    | .inl asObject => (accepts_asObject law apart deep).decode source asObject
    | .inr asArray => (accepts_asArray law).decode source asArray

/-- A record is spelled as an object when it is written. -/
theorem spelledEitherWay_encode {value : τ} (written : spellings.AsWritten (record.toRow value)) :
    record.SpelledEitherWay spellings value (record.codec.encode value).outline :=
  .inl (spelledAsObject_of_spelled (spelled_encode written))

theorem spelledEitherWay_positional {value : τ}
    (written : spellings.AsWritten (record.toRow value)) :
    record.SpelledEitherWay spellings value (record.positional value).outline :=
  .inr ⟨_, rfl, Fields.Spellings.lists_items written⟩

theorem not_spelledEitherWay_null (value : τ) :
    ¬ record.SpelledEitherWay spellings value .null := by
  rintro (⟨members, own, foreign, same, -⟩ | ⟨items, same, -⟩) <;> cases same

end Record

/-! ## Values that may be missing -/

/-- A value that may be missing: null, or the value spelled. -/
def Spelling.ForOptional {α : Type} (spelling : Spelling α) : Spelling (Option α)
  | none, outline => outline = .null
  | some value, outline => spelling value outline

theorem Codec.Accepts.optional {α : Type} {codec : Codec α} {spelling : Spelling α} {depth : Nat}
    (law : codec.Accepts spelling depth) (present : ∀ value, ¬ spelling value .null) :
    codec.optional.Accepts spelling.ForOptional depth where
  fits := by
    rintro (_ | value) outline spelled
    · obtain rfl : outline = .null := spelled
      cases depth <;> rfl
    · exact law.fits spelled
  decode := by
    rintro source (_ | value) outline spelled
    · obtain rfl : outline = .null := spelled
      rfl
    · have present : outline ≠ .null := fun same => present value (same ▸ spelled)
      rw [decode_optional codec source present, law.decode source spelled]
      rfl

end DeclarationDocs.Json
