import DeclarationDocs.Json.Codec

/-!
# Records

A record type is written as an object with a member for each of its fields. It may also be read from
an array that gives the members in their declared order. Both forms follow from one description: the
list of the fields with their names, their codecs, and what stands for a member that is left out.

Reading an object goes through the text once. A member that comes a second time is refused before
its value is looked at, a member of another name is passed over, and what is missing shows at the
end.
-/

namespace DeclarationDocs.Json

/-- A member of a record. -/
structure Field (α : Type) where
  name : String
  codec : Codec α
  /-- What stands for the member when it is left out; a member with `none` has to be there. -/
  whenAbsent : Option α
  /-- Whether the member is left out when the value is written. -/
  isOmitted : α → Bool
  /-- Only what comes back on reading is left out. -/
  absent_of_omitted : ∀ a, isOmitted a = true → whenAbsent = some a

namespace Field

variable {α : Type}

def required (name : String) (codec : Codec α) : Field α :=
  ⟨name, codec, none, fun _ => false, fun _ omitted => Bool.noConfusion omitted⟩

/-- A member that is always written and may be missing when read. -/
def withDefault (name : String) (codec : Codec α) (value : α) : Field α :=
  ⟨name, codec, some value, fun _ => false, fun _ omitted => Bool.noConfusion omitted⟩

def unlessDefault [DecidableEq α] (name : String) (codec : Codec α) (value : α) : Field α :=
  ⟨name, codec, some value, fun a => a = value, fun _ omitted => by
    rw [of_decide_eq_true omitted]⟩

/-- A member that may be missing, and is left out when there is nothing to write. -/
def optional (name : String) (codec : Codec α) : Field (Option α) :=
  ⟨name, codec.optional, some none, Option.isNone, fun _ omitted => by
    rw [Option.isNone_iff_eq_none.mp omitted]⟩

end Field

/-- The fields of a record, in declared order. The first index is the type of their values, the
second the type of what has been read of them so far: a pair for each field. -/
inductive Fields : Type → Type → Type 1 where
  | done : Fields Unit Unit
  | field {α ρ σ : Type} (head : Field α) (rest : Fields ρ σ) : Fields (α × ρ) (Option α × σ)

namespace Fields

def count : {ρ σ : Type} → Fields ρ σ → Nat
  | _, _, .done => 0
  | _, _, .field _ rest => rest.count + 1

/-! ## Writing -/

/-- The members that are written for the values of the fields. -/
def members : {ρ σ : Type} → Fields ρ σ → ρ → List (String × Value)
  | _, _, .done, _ => []
  | _, _, .field head rest, (value, row) =>
    if head.isOmitted value then rest.members row
    else (head.name, head.codec.encode value) :: rest.members row

/-! ## Reading an object -/

def noSlots : {ρ σ : Type} → Fields ρ σ → σ
  | _, _, .done => ()
  | _, _, .field _ rest => (none, rest.noSlots)

def accept? (source : Source) (name : String) (value : Outline) :
    {ρ σ : Type} → Fields ρ σ → σ → Option (Except ReadError σ)
  | _, _, .done, _ => none
  | _, _, .field head rest, (slot, slots) =>
    if head.name = name then
      match slot with
      | some _ => some (.error (.content (.duplicateMember name)))
      | none => some ((head.codec.decode source value).map fun read => (some read, slots))
    else
      (rest.accept? source name value slots).map fun outcome =>
        outcome.map fun slots => (slot, slots)

/-- Take in the members of an object, in the order of the text. -/
def acceptAll {ρ σ : Type} (source : Source) (fields : Fields ρ σ) :
    List (Key × Outline) → σ → Except ReadError σ
  | [], slots => .ok slots
  | (.named name, value) :: rest, slots =>
    match fields.accept? source name value slots with
    | some outcome => outcome.bind (acceptAll source fields rest)
    | none => if value.isWhole then acceptAll source fields rest slots else .error .malformed
  | _ :: _, _ => .error .malformed

def settle : {ρ σ : Type} → Fields ρ σ → σ → Except ReadError ρ
  | _, _, .done, _ => .ok ()
  | _, _, .field head rest, (slot, slots) =>
    match slot.or head.whenAbsent with
    | some value => (rest.settle slots).map fun row => (value, row)
    | none => .error (.content (.missingMember head.name))

/-- The values of the fields from the members of an object. -/
def ofMembers {ρ σ : Type} (source : Source) (fields : Fields ρ σ) (closed : Bool)
    (members : List (Key × Outline)) : Except ReadError ρ := do
  let slots ← fields.acceptAll source members fields.noSlots
  if closed then fields.settle slots else throw .malformed

/-! ## Reading an array -/

/-- The values of the fields from the items of an array, and the items behind them. `short` is the
complaint about an array that ends before the field at a position. -/
def ofItems (source : Source) (short : Nat → Problem) (closed : Bool) :
    {ρ σ : Type} → Fields ρ σ → Nat → List Outline → Except ReadError (ρ × List Outline)
  | _, _, .done, _, items => .ok ((), items)
  | _, _, .field head rest, position, [] =>
    if closed then
      match head.whenAbsent with
      | some value =>
        (rest.ofItems source short closed (position + 1) []).map fun (row, left) =>
          ((value, row), left)
      | none => .error (.content (short position))
    else .error .malformed
  | _, _, .field head rest, position, item :: items => do
    let value ← head.codec.decode source item
    let (row, left) ← rest.ofItems source short closed (position + 1) items
    return ((value, row), left)

end Fields

/-- The written form of a record type. -/
structure Record (τ : Type) where
  /-- The values of the fields. -/
  {Row : Type}
  /-- What has been read of the fields so far. -/
  {Slots : Type}
  /-- The name of the record in messages. -/
  name : String
  fields : Fields Row Slots
  ofRow : Row → τ
  toRow : τ → Row
  ofRow_toRow : ∀ record, ofRow (toRow record) = record

namespace Record

variable {τ : Type}

def members (record : Record τ) (value : τ) : List (String × Value) :=
  record.fields.members (record.toRow value)

/-- The complaint about an array that ends before the member at a position. -/
def tooShort (record : Record τ) (position : Nat) : Problem :=
  .tooShort position record.name record.fields.count

/-- What follows the last member of a record in an array. While the text is being read, the closing
bracket is all that may follow; in a stored array the complaint gives its length. -/
def checkEnd (record : Record τ) (source : Source) (closed : Bool) (given : Nat)
    (left : List Outline) : Except ReadError Unit :=
  if left.isEmpty then
    if closed then .ok () else .error .malformed
  else
    match source with
    | .live => .error .malformed
    | .stored => .error (.content (.tooLong given record.fields.count))

def decode (record : Record τ) (source : Source) : Outline → Except ReadError τ
  | .object members closed =>
    (record.fields.ofMembers source closed members).map record.ofRow
  | .array items closed => do
    let (row, left) ← record.fields.ofItems source record.tooShort closed 0 items
    record.checkEnd source closed items.length left
    return record.ofRow row
  | outline => .error (outline.mismatch (.record record.name))

def codec (record : Record τ) : Codec τ where
  encode value := .object (record.members value)
  decode := record.decode

end Record

end DeclarationDocs.Json
