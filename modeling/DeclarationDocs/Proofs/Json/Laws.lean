import DeclarationDocs.Json.Record
import DeclarationDocs.Proofs.Json.Documents
import DeclarationDocs.Proofs.Results

/-!
# Codec laws

Some types have values that no text stands for; such a value is read back as its canonical form. A
codec restores canonical forms when its written values are read as their canonical forms and what it
reads is canonical. The law is lifted through lists, optional values and records, field by field.

Main statements: `Record.restores` for records and `Codec.Restores.read_write` for whole texts.
-/

namespace DeclarationDocs.Json

/-- A key with one of the names is none with another name. -/
theorem Key.ne_of_notMem {names : List String} {name : String} {key : Key} (fresh : name ∉ names)
    (known : ∃ other ∈ names, key = .named other) : key ≠ .named name := by
  rintro rfl
  obtain ⟨other, listed, same⟩ := known
  obtain rfl := Key.named.inj same
  exact fresh listed

namespace Codec

variable {α β : Type}

/-- Whether a value is what some outline is read as. -/
def Yields (codec : Codec α) (a : α) : Prop :=
  ∃ source outline, codec.decode source outline = .ok a

/-- Values are written with containers at most `depth` deep and read back as their canonical forms,
and only canonical forms are read. -/
structure Restores (codec : Codec α) (canonical : α → α) (depth : Nat) : Prop where
  within : ∀ a, (codec.encode a).Within depth
  decode_encode : ∀ source a, codec.decode source (codec.encode a).outline = .ok (canonical a)
  canonical_of_yields : ∀ a, codec.Yields a → canonical a = a

/-- Values are read back from what is written for them. -/
abbrev Returns (codec : Codec α) (depth : Nat) : Prop := codec.Restores id depth

/-! ## Leaves -/

theorem text_returns (depth : Nat) : text.Returns depth where
  within content := .text content
  decode_encode _ _ := rfl
  canonical_of_yields _ _ := rfl

theorem index_returns (depth : Nat) : index.Returns depth where
  within position := .natural position.toNat_lt
  decode_encode _ position := by
    have notNegative : ¬ (position.toNat : Int) < 0 := Int.not_lt.mpr (Int.natCast_nonneg _)
    have same : UInt64.ofNat (position.toNat : Int).toNat = position := by
      rw [Int.toNat_natCast, UInt64.ofNat_toNat]
    simp only [index, Value.outline, if_neg notNegative, same, id]
  canonical_of_yields _ _ := rfl

theorem along_restores {codec : Codec α} {depth : Nat} (law : codec.Returns depth)
    (toOther : α → β) (ofOther : β → α) (canonical : β → β)
    (back : ∀ b, toOther (ofOther b) = canonical b)
    (settled : ∀ a, canonical (toOther a) = toOther a) :
    (codec.along toOther ofOther).Restores canonical depth where
  within b := law.within (ofOther b)
  decode_encode source b := by
    show (codec.decode source (codec.encode (ofOther b)).outline).map toOther = _
    rw [law.decode_encode]
    exact congrArg Except.ok (back b)
  canonical_of_yields b := by
    rintro ⟨source, outline, done⟩
    obtain ⟨a, -, rfl⟩ := exists_of_map_ok done
    exact settled a

/-- A variant is found under its name when the names tell the variants apart. -/
theorem variants_returns {known : List α} {name : α → String} (all : ∀ a, a ∈ known)
    (apart : ∀ {a b}, name a = name b → a = b) (depth : Nat) :
    (variants known name).Returns depth where
  within a := .text (name a)
  decode_encode source a := by
    have found : known.find? (fun variant => name variant = name a) = some a := by
      cases search : known.find? fun variant => name variant = name a with
      | none => simpa using List.find?_eq_none.mp search a (all a)
      | some b =>
        have same : name b = name a := by simpa using List.find?_some search
        rw [apart same]
    show (variantNamed known name (name a)).mapError ReadError.content = _
    rw [variantNamed, found]
    rfl
  canonical_of_yields _ _ := rfl

/-! ## Optional values and lists -/

theorem outline_ne_null {value : Value} (present : value ≠ .null) : value.outline ≠ .null := by
  cases value with
  | null => exact absurd rfl present
  | natural | text | array | object => exact fun same => nomatch same

theorem decode_optional (codec : Codec α) (source : Source) {outline : Outline}
    (notNull : outline ≠ .null) :
    codec.optional.decode source outline = (codec.decode source outline).map some := by
  cases outline with
  | null => exact absurd rfl notNull
  | boolean | number | text | array | object | broken => rfl

theorem optional_returns {codec : Codec α} {depth : Nat} (law : codec.Returns depth)
    (present : ∀ a, codec.encode a ≠ .null) : codec.optional.Returns depth where
  within value := by
    cases value with
    | none => exact .null
    | some a => exact law.within a
  decode_encode source value := by
    cases value with
    | none => rfl
    | some a =>
      have read := decode_optional codec source (outline_ne_null (present a))
      rw [law.decode_encode] at read
      exact read
  canonical_of_yields _ _ := rfl

theorem mapM_decode_encode {codec : Codec α} {canonical : α → α} {depth : Nat}
    (law : codec.Restores canonical depth) (source : Source) (items : List α) :
    (Value.outlines (items.map codec.encode)).mapM (codec.decode source)
      = .ok (items.map canonical) := by
  induction items with
  | nil => rfl
  | cons item items ih =>
    rw [List.map_cons, Value.outlines, List.mapM_cons, law.decode_encode, ih]
    rfl

theorem map_canonical_of_mapM {codec : Codec α} {canonical : α → α} {depth : Nat}
    (law : codec.Restores canonical depth) {source : Source} {outlines : List Outline}
    {items : List α} (done : outlines.mapM (codec.decode source) = .ok items) :
    items.map canonical = items := by
  have each := mapM_eq_ok_iff.mp done
  clear done
  induction each with
  | nil => rfl
  | cons read _ ih => rw [List.map_cons, law.canonical_of_yields _ ⟨source, _, read⟩, ih]

theorem list_restores {codec : Codec α} {canonical : α → α} {depth : Nat}
    (law : codec.Restores canonical depth) :
    codec.list.Restores (List.map canonical) (depth + 1) where
  within items := by
    refine .array ?_
    intro value member
    obtain ⟨item, -, rfl⟩ := List.mem_map.mp member
    exact law.within item
  decode_encode source items := by
    show ((Value.outlines (items.map codec.encode)).mapM (codec.decode source) >>= _) = _
    rw [mapM_decode_encode law]
    rfl
  canonical_of_yields items := by
    rintro ⟨source, outline, done⟩
    cases outline with
    | array outlines closed =>
      obtain ⟨read, first, done⟩ := exists_of_bind_ok done
      cases closed with
      | false => cases done
      | true =>
        obtain rfl := Except.ok.inj done
        exact map_canonical_of_mapM law first
    | null | boolean | number | text | object | broken => cases done

theorem list_returns {codec : Codec α} {depth : Nat} (law : codec.Returns depth) :
    codec.list.Returns (depth + 1) := by
  have lifted := list_restores law
  rwa [List.map_id_fun] at lifted

end Codec

/-! ## Records -/

namespace Fields

/-- The names of the fields. -/
def names : {ρ σ : Type} → Fields ρ σ → List String
  | _, _, .done => []
  | _, _, .field head rest => head.name :: rest.names

/-- Whether the values of a row are defaults or have been read. -/
def Yields : {ρ σ : Type} → Fields ρ σ → ρ → Prop
  | _, _, .done, _ => True
  | _, _, .field head rest, (value, row) =>
    (head.whenAbsent = some value ∨ head.codec.Yields value) ∧ rest.Yields row

/-- Whether what has been filled in has been read. -/
def Filled : {ρ σ : Type} → Fields ρ σ → σ → Prop
  | _, _, .done, _ => True
  | _, _, .field head rest, (slot, slots) =>
    (∀ value, slot = some value → head.codec.Yields value) ∧ rest.Filled slots

theorem filled_noSlots {ρ σ : Type} (fields : Fields ρ σ) : fields.Filled fields.noSlots := by
  induction fields with
  | done => trivial
  | field head rest ih =>
    refine ⟨?_, ih⟩
    intro value read
    cases read

theorem filled_of_accept? {source : Source} {name : String} {value : Outline} {ρ σ : Type}
    (fields : Fields ρ σ) {slots slots' : σ} (filled : fields.Filled slots)
    (done : fields.accept? source name value slots = some (.ok slots')) :
    fields.Filled slots' := by
  induction fields with
  | done => cases done
  | field head rest ih =>
    obtain ⟨slot, slots⟩ := slots
    obtain ⟨first, others⟩ := filled
    simp only [accept?] at done
    split at done
    next =>
      split at done
      next => cases done
      next =>
        obtain ⟨read, decoded, rfl⟩ := exists_of_map_ok (Option.some.inj done)
        refine ⟨?_, others⟩
        intro value same
        obtain rfl := Option.some.inj same
        exact ⟨source, _, decoded⟩
    next =>
      obtain ⟨outcome, accepted, mapped⟩ := Option.map_eq_some_iff.mp done
      obtain ⟨read, rfl, rfl⟩ := exists_of_map_ok mapped
      exact ⟨first, ih others accepted⟩

theorem filled_of_acceptAll {source : Source} {ρ σ : Type} (fields : Fields ρ σ)
    {members : List (Key × Outline)} {slots slots' : σ} (filled : fields.Filled slots)
    (done : fields.acceptAll source members slots = .ok slots') : fields.Filled slots' := by
  induction members generalizing slots with
  | nil => exact Except.ok.inj done ▸ filled
  | cons member members ih =>
    obtain ⟨key, value⟩ := member
    cases key with
    | unreadable => cases done
    | named name =>
      simp only [acceptAll] at done
      split at done
      next outcome accepted =>
        obtain ⟨read, rfl, more⟩ := exists_of_bind_ok done
        exact ih (filled_of_accept? fields filled accepted) more
      next =>
        split at done
        next => exact ih filled done
        next => cases done

theorem yields_of_settle {ρ σ : Type} (fields : Fields ρ σ) {slots : σ} {row : ρ}
    (filled : fields.Filled slots) (done : fields.settle slots = .ok row) : fields.Yields row := by
  induction fields with
  | done => trivial
  | field head rest ih =>
    obtain ⟨slot, slots⟩ := slots
    obtain ⟨first, others⟩ := filled
    simp only [settle] at done
    split at done
    next value there =>
      obtain ⟨row, settled, rfl⟩ := exists_of_map_ok done
      refine ⟨?_, ih others settled⟩
      -- what was filled in goes before the default
      cases slot with
      | none => exact .inl there
      | some read => exact .inr (first value there)
    next => cases done

theorem yields_of_ofItems {source : Source} {short : Nat → Problem} {closed : Bool} {ρ σ : Type}
    (fields : Fields ρ σ) {position : Nat} {items left : List Outline} {row : ρ}
    (done : fields.ofItems source short closed position items = .ok (row, left)) :
    fields.Yields row := by
  induction fields generalizing position items with
  | done => trivial
  | field head rest ih =>
    cases items with
    | nil =>
      simp only [ofItems] at done
      split at done
      next =>
        split at done
        next value absent =>
          obtain ⟨⟨row, left⟩, others, same⟩ := exists_of_map_ok done
          cases same
          exact ⟨.inl absent, ih others⟩
        next => cases done
      next => cases done
    | cons item items =>
      obtain ⟨value, decoded, done⟩ := exists_of_bind_ok done
      obtain ⟨⟨row, left⟩, others, done⟩ := exists_of_bind_ok done
      cases done
      exact ⟨.inr ⟨source, item, decoded⟩, ih others⟩

/-- Rows of values are restored when the values of each field are and the defaults are canonical. -/
inductive Restores (depth : Nat) : {ρ σ : Type} → Fields ρ σ → (ρ → ρ) → Prop where
  | done : Restores depth .done id
  | field {α ρ σ : Type} {head : Field α} {rest : Fields ρ σ} {canonical : α → α}
    {canonicalRow : ρ → ρ} (law : head.codec.Restores canonical depth)
    (default : ∀ value, head.whenAbsent = some value → canonical value = value)
    (others : Restores depth rest canonicalRow) :
    Restores depth (.field head rest) fun row => (canonical row.1, canonicalRow row.2)

namespace Restores

variable {α ρ σ : Type} {depth : Nat} {name : String} {codec : Codec α} {canonical : α → α}
  {rest : Fields ρ σ} {canonicalRow : ρ → ρ}

theorem required (law : codec.Restores canonical depth)
    (others : rest.Restores depth canonicalRow) :
    (Fields.field (.required name codec) rest).Restores depth
      fun row => (canonical row.1, canonicalRow row.2) :=
  .field law (fun _ absent => nomatch absent) others

theorem withDefault {value : α} (law : codec.Restores canonical depth)
    (default : canonical value = value) (others : rest.Restores depth canonicalRow) :
    (Fields.field (.withDefault name codec value) rest).Restores depth
      fun row => (canonical row.1, canonicalRow row.2) :=
  .field law (fun _ absent => Option.some.inj absent ▸ default) others

theorem unlessDefault [DecidableEq α] {value : α} (law : codec.Restores canonical depth)
    (default : canonical value = value) (others : rest.Restores depth canonicalRow) :
    (Fields.field (.unlessDefault name codec value) rest).Restores depth
      fun row => (canonical row.1, canonicalRow row.2) :=
  .field law (fun _ absent => Option.some.inj absent ▸ default) others

theorem optional (law : codec.Returns depth) (present : ∀ a, codec.encode a ≠ .null)
    (others : rest.Restores depth canonicalRow) :
    (Fields.field (.optional name codec) rest).Restores depth
      fun row => (row.1, canonicalRow row.2) :=
  .field (Codec.optional_returns law present) (fun _ _ => rfl) others

end Restores

/-- The members that are written for a row have the names of the fields. -/
theorem key_mem_names {ρ σ : Type} (fields : Fields ρ σ) (row : ρ) :
    ∀ member ∈ Value.memberOutlines (fields.members row),
      ∃ name ∈ fields.names, member.1 = .named name := by
  induction fields with
  | done =>
    intro member none
    cases none
  | field head rest ih =>
    obtain ⟨value, row⟩ := row
    have later : ∀ member ∈ Value.memberOutlines (rest.members row),
        ∃ name ∈ (Fields.field head rest).names, member.1 = .named name := by
      intro member listed
      obtain ⟨name, known, named⟩ := ih row member listed
      exact ⟨name, List.mem_cons_of_mem _ known, named⟩
    rw [members]
    split
    next => exact later
    next => exact List.forall_mem_cons.mpr ⟨⟨head.name, List.mem_cons_self, rfl⟩, later⟩

/-- Members of other names go past a field. -/
theorem acceptAll_past {α ρ σ : Type} (source : Source) (head : Field α) (rest : Fields ρ σ)
    (slot : Option α) {members : List (Key × Outline)} (slots : σ)
    (other : ∀ member ∈ members, member.1 ≠ .named head.name) :
    (Fields.field head rest).acceptAll source members (slot, slots)
      = (rest.acceptAll source members slots).map (slot, ·) := by
  induction members generalizing slots with
  | nil => rfl
  | cons member members ih =>
    obtain ⟨first, others⟩ := List.forall_mem_cons.mp other
    obtain ⟨key, value⟩ := member
    cases key with
    | unreadable => rfl
    | named name =>
      have different : head.name ≠ name := fun same => first (congrArg Key.named same.symm)
      simp only [acceptAll, accept?, if_neg different]
      -- the other fields may take the member in, refuse it or not know it
      cases rest.accept? source name value slots with
      | none =>
        show (if _ then _ else _) = _
        split
        next => exact ih slots others
        next => rfl
      | some outcome =>
        cases outcome with
        | error e => rfl
        | ok slots' => exact ih slots' others

namespace Restores

variable {depth : Nat} {ρ σ : Type} {fields : Fields ρ σ} {canonicalRow : ρ → ρ}

theorem within (law : fields.Restores depth canonicalRow) (row : ρ) :
    ∀ member ∈ fields.members row, member.2.Within depth := by
  induction law with
  | done =>
    intro member none
    cases none
  | @field _ _ _ head rest _ _ law _ _ ih =>
    obtain ⟨value, row⟩ := row
    intro member listed
    simp only [members] at listed
    split at listed
    next => exact ih row member listed
    next =>
      rcases List.mem_cons.mp listed with rfl | later
      · exact law.within value
      · exact ih row member later

/-- The members that were written for a row fill in what is settled as its canonical form. -/
theorem acceptAll_members (law : fields.Restores depth canonicalRow)
    (apart : fields.names.Nodup) (source : Source) (row : ρ) :
    ∃ slots, fields.acceptAll source (Value.memberOutlines (fields.members row)) fields.noSlots
        = .ok slots ∧ fields.settle slots = .ok (canonicalRow row) := by
  induction law with
  | done => exact ⟨(), rfl, rfl⟩
  | @field _ _ _ head rest canonical canonicalRow law default others ih =>
    obtain ⟨value, row⟩ := row
    obtain ⟨fresh, apart⟩ := List.nodup_cons.mp apart
    obtain ⟨slots, accepted, settled⟩ := ih apart row
    have other : ∀ member ∈ Value.memberOutlines (rest.members row),
        member.1 ≠ .named head.name := fun member listed =>
      Key.ne_of_notMem fresh (key_mem_names rest row member listed)
    -- a member that is left out leaves its slot empty, and the default stands in for it
    by_cases omitted : head.isOmitted value = true
    · have absent := head.absent_of_omitted value omitted
      refine ⟨(none, slots), ?_, ?_⟩
      · rw [members, if_pos omitted]
        exact (acceptAll_past source head rest none _ other).trans (by rw [accepted]; rfl)
      · simp only [settle, Option.none_or, absent, settled, default value absent]
        rfl
    · refine ⟨(some (canonical value), slots), ?_, ?_⟩
      · rw [members, if_neg omitted]
        have first : (Fields.field head rest).accept? source head.name
            (head.codec.encode value).outline (none, rest.noSlots)
            = some (.ok (some (canonical value), rest.noSlots)) := by
          simp only [accept?, if_true, law.decode_encode]
          rfl
        simp only [Value.memberOutlines, acceptAll, noSlots, first]
        exact (acceptAll_past source head rest _ _ other).trans (by rw [accepted]; rfl)
      · simp only [settle, Option.some_or, settled]
        rfl

theorem canonical_of_yields (law : fields.Restores depth canonicalRow) (row : ρ)
    (read : fields.Yields row) : canonicalRow row = row := by
  induction law with
  | done => rfl
  | field law default _ ih =>
    obtain ⟨value, row⟩ := row
    obtain ⟨first, others⟩ := read
    have same : _ = value := first.elim (default value) (law.canonical_of_yields value)
    exact Prod.ext same (ih row others)

end Restores

end Fields

namespace Record

variable {τ : Type}

theorem yields_of_decode (record : Record τ) {source : Source} {outline : Outline} {value : τ}
    (done : record.decode source outline = .ok value) :
    ∃ row, record.fields.Yields row ∧ record.ofRow row = value := by
  cases outline with
  | object members closed =>
    obtain ⟨row, done, same⟩ := exists_of_map_ok done
    obtain ⟨slots, accepted, done⟩ := exists_of_bind_ok done
    cases closed with
    | false => cases done
    | true =>
      have filled := Fields.filled_of_acceptAll _ (Fields.filled_noSlots _) accepted
      exact ⟨row, Fields.yields_of_settle _ filled done, same⟩
  | array items closed =>
    obtain ⟨⟨row, left⟩, read, done⟩ := exists_of_bind_ok done
    obtain ⟨_, -, done⟩ := exists_of_bind_ok done
    exact ⟨row, Fields.yields_of_ofItems _ read, Except.ok.inj done⟩
  | null | boolean | number | text | broken => cases done

/-- A record is restored when its rows are, and its canonical form is that of its row. -/
theorem restores {record : Record τ} {depth : Nat} {canonicalRow : record.Row → record.Row}
    (law : record.fields.Restores depth canonicalRow) (apart : record.fields.names.Nodup)
    {canonical : τ → τ}
    (byRow : ∀ row, canonical (record.ofRow row) = record.ofRow (canonicalRow row)) :
    record.codec.Restores canonical (depth + 1) where
  within value := .object (law.within (record.toRow value))
  decode_encode source value := by
    obtain ⟨slots, accepted, settled⟩ := law.acceptAll_members apart source (record.toRow value)
    have read : record.fields.ofMembers source true (Value.memberOutlines (record.members value))
        = .ok (canonicalRow (record.toRow value)) := by
      rw [Fields.ofMembers, members, accepted]
      exact settled
    show (record.fields.ofMembers source true _).map record.ofRow = _
    rw [read, ← record.ofRow_toRow value, byRow, record.ofRow_toRow]
    rfl
  canonical_of_yields value := by
    rintro ⟨source, outline, done⟩
    obtain ⟨row, read, rfl⟩ := yields_of_decode record done
    rw [byRow, law.canonical_of_yields row read]

end Record

/-! ## Whole texts -/

namespace Codec.Restores

variable {α : Type} {codec : Codec α} {canonical : α → α} {depth : Nat}

/-- The text of a value is read as the value's canonical form. -/
theorem read_write (law : codec.Restores canonical depth) (a : α) :
    codec.read (codec.write a) = .ok (canonical a) := by
  rw [read, write, Document.ofText_toText (law.within a), law.decode_encode]
  rfl

theorem canonical_of_read (law : codec.Restores canonical depth) {text : String} {a : α}
    (done : codec.read text = .ok a) : canonical a = a := by
  obtain ⟨value, decoded, done⟩ := exists_of_bind_ok done
  have same : value = a := by
    split at done
    next => exact Except.ok.inj done
    next => cases done
  exact same ▸ law.canonical_of_yields value ⟨_, _, decoded⟩

end Codec.Restores

end DeclarationDocs.Json
