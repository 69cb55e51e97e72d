import DeclarationDocs.Proofs.Json.Spellings

/-!
# Complaints about stored values

A value is stored only when it can be read completely. Whatever is wrong with it then is wrong with
its content, and the decoder says what it is; it never finds the text malformed. The law is lifted
from the leaves through lists and records. While a text is being read this is different: an object
that should name a variant and does not start with a string is malformed, whatever it starts with.

Main statements: `Record.explains` and `Codec.read_variants_eq_malformed`.
-/

namespace DeclarationDocs.Json

theorem ok_ne_malformed {α : Type} (a : α) :
    (Except.ok a : Except ReadError α) ≠ .error .malformed := by
  intro same
  cases same

theorem content_ne_malformed {α : Type} (problem : Problem) :
    (Except.error (.content problem) : Except ReadError α) ≠ .error .malformed := by
  intro same
  cases same

theorem map_ne_malformed {α β : Type} {x : Except ReadError α} (explained : x ≠ .error .malformed)
    (f : α → β) : x.map f ≠ .error .malformed := by
  cases x with
  | error e => exact fun same => explained (congrArg Except.error (Except.error.inj same))
  | ok a => exact ok_ne_malformed _

theorem bind_ne_malformed {α β : Type} {x : Except ReadError α} {next : α → Except ReadError β}
    (explained : x ≠ .error .malformed) (later : ∀ a, x = .ok a → next a ≠ .error .malformed) :
    x >>= next ≠ .error .malformed := by
  cases x with
  | error e => exact fun same => explained (congrArg Except.error (Except.error.inj same))
  | ok a => exact later a rfl

/-- What can be read completely has a name. -/
theorem Outline.mismatch_ne_malformed {outline : Outline} {room : Nat}
    (fitting : outline.fits room = true) (expected : Expected) :
    outline.mismatch expected ≠ .malformed := by
  cases outline with
  | number value =>
    cases value with
    | none => cases room <;> cases fitting
    | some value => exact nofun
  | text value =>
    cases value with
    | none => cases room <;> cases fitting
    | some value => exact nofun
  | broken => cases room <;> cases fitting
  | null | boolean | array | object => exact nofun

namespace Codec

variable {α β : Type}

/-- What the codec has against a stored value that can be read completely is a matter of its
content. -/
def Explains (codec : Codec α) : Prop :=
  ∀ ⦃room : Nat⦄ ⦃outline : Outline⦄, outline.fits room = true →
    codec.decode .stored outline ≠ .error .malformed

theorem mismatch_explains {room : Nat} {outline : Outline} (fitting : outline.fits room = true)
    (expected : Expected) :
    (Except.error (outline.mismatch expected) : Except ReadError α) ≠ .error .malformed :=
  fun same => Outline.mismatch_ne_malformed fitting expected (Except.error.inj same)

theorem text_explains : text.Explains := by
  intro room outline fitting
  unfold text
  dsimp only
  split
  · exact ok_ne_malformed _
  · exact mismatch_explains fitting .text

theorem index_explains : index.Explains := by
  intro room outline fitting
  unfold index
  dsimp only
  split
  · split
    · exact content_ne_malformed _
    · exact ok_ne_malformed _
  · exact mismatch_explains fitting .index

theorem along_explains {codec : Codec α} (law : codec.Explains) (toOther : α → β) (ofOther : β → α) :
    (codec.along toOther ofOther).Explains :=
  fun _ _ fitting => map_ne_malformed (law fitting) toOther

theorem optional_explains {codec : Codec α} (law : codec.Explains) : codec.optional.Explains := by
  intro room outline fitting
  unfold optional
  dsimp only
  split
  · exact ok_ne_malformed _
  · exact map_ne_malformed (law fitting) some

theorem list_explains {codec : Codec α} (law : codec.Explains) : codec.list.Explains := by
  intro room outline fitting
  unfold list
  dsimp only
  split
  next items closed =>
    obtain _ | room := room
    · cases fitting
    · rw [Outline.fits, Bool.and_eq_true] at fitting
      refine bind_ne_malformed (fun refused => ?_) fun read _ => ?_
      · obtain ⟨before, item, after, rfl, -, refused⟩ := mapM_eq_error_iff.mp refused
        exact law (Outline.allFit_iff.mp fitting.1 item (by simp)) refused
      · rw [if_pos fitting.2]
        exact ok_ne_malformed _
  · exact mismatch_explains fitting .sequence

theorem variant?_explains (known : List α) (name : α → String) (given : String) :
    variant? known name given ≠ .error .malformed := by
  unfold variant?
  cases variantNamed known name given with
  | error problem => exact content_ne_malformed problem
  | ok variant => exact ok_ne_malformed variant

theorem nothing_explains {room : Nat} {outline : Outline} (fitting : outline.fits room = true) :
    nothing .stored outline ≠ .error .malformed := by
  unfold nothing
  split
  · exact ok_ne_malformed _
  · split
    · exact ok_ne_malformed _
    · exact mismatch_explains fitting .unit

theorem soleVariant_explains (known : List α) (name : α → String) {room : Nat}
    {members : List (Key × Outline)} (fitting : Outline.membersFit room members = true) :
    soleVariant .stored known name true members ≠ .error .malformed := by
  have inside := Outline.membersFit_iff.mp fitting
  unfold soleVariant
  split
  next given value =>
    refine bind_ne_malformed (variant?_explains known name given) fun variant _ => ?_
    refine bind_ne_malformed (nothing_explains (inside _ (List.mem_singleton_self _)).2) ?_
    exact fun _ _ => ok_ne_malformed _
  · exact content_ne_malformed _
  · exact content_ne_malformed _

theorem variants_explains (known : List α) (name : α → String) :
    (variants known name).Explains := by
  intro room outline fitting
  unfold variants
  dsimp only
  split
  next given => exact variant?_explains known name given
  next members closed =>
    obtain _ | room := room
    · cases fitting
    · rw [Outline.fits, Bool.and_eq_true] at fitting
      obtain ⟨fitting, rfl⟩ := fitting
      exact soleVariant_explains known name fitting
  next => exact mismatch_explains fitting .textOrMap

/-- Where a text should name a variant by the member of an object, only a string may follow the
brace. -/
theorem read_variants_eq_malformed (known : List α) (name : α → String) {text : String}
    {token : Token} {rest : List Token}
    (scanned : Token.scan text.toList = .openObject :: token :: rest)
    (unnamed : ∀ content, token ≠ .text content) :
    (variants known name).read text = .error .malformed := by
  obtain ⟨closed, empty⟩ : ∃ closed, (Document.ofText text).root = .object [] closed := by
    have opened : Outline.ofTokens (.openObject :: token :: rest)
        = Outline.resume rest (Outline.step [] .firstKey token) := by
      rw [Outline.ofTokens, Outline.readFrom_cons]
      exact Outline.readFrom_cons ..
    rw [Document.ofText, scanned, opened]
    cases token with
    | text content => exact absurd rfl (unnamed content)
    | closeObject => cases rest <;> exact ⟨true, rfl⟩
    | _ => exact ⟨false, rfl⟩
  have refused : (variants known name).decode .live (Document.ofText text).root
      = .error .malformed := by
    rw [empty]
    rfl
  rw [read, refused]
  rfl

end Codec

/-! ## Records -/

namespace Fields

variable {ρ σ : Type}

/-- Every field explains what it has against a value. -/
def Explain : {ρ σ : Type} → Fields ρ σ → Prop
  | _, _, .done => True
  | _, _, .field head rest => head.codec.Explains ∧ rest.Explain

theorem accept?_explains {fields : Fields ρ σ} (law : fields.Explain) {name : String} {room : Nat}
    {value : Outline} (fitting : value.fits room = true) (slots : σ) :
    fields.accept? .stored name value slots ≠ some (.error .malformed) := by
  induction fields with
  | done => exact (Option.some_ne_none _).symm
  | field head rest ih =>
    obtain ⟨slot, slots⟩ := slots
    obtain ⟨first, others⟩ := law
    simp only [accept?]
    split
    · cases slot with
      | some read => exact fun same => content_ne_malformed _ (Option.some.inj same)
      | none => exact fun same => map_ne_malformed (first fitting) _ (Option.some.inj same)
    · intro same
      obtain ⟨outcome, accepted, mapped⟩ := Option.map_eq_some_iff.mp same
      exact map_ne_malformed (fun refused => ih others slots (refused ▸ accepted)) _ mapped

theorem acceptAll_explains {fields : Fields ρ σ} (law : fields.Explain) {room : Nat}
    {members : List (Key × Outline)} (fitting : Outline.membersFit room members = true)
    (slots : σ) : fields.acceptAll .stored members slots ≠ .error .malformed := by
  induction members generalizing slots with
  | nil => exact ok_ne_malformed _
  | cons member members ih =>
    obtain ⟨⟨⟨name, same⟩, first⟩, others⟩ :=
      List.forall_mem_cons.mp (Outline.membersFit_iff.mp fitting)
    obtain ⟨key, value⟩ := member
    obtain rfl : key = .named name := same
    rw [acceptAll]
    split
    next outcome accepted =>
      refine bind_ne_malformed (fun refused => ?_) fun slots _ =>
        ih (Outline.membersFit_iff.mpr others) slots
      exact accept?_explains law first slots (refused ▸ accepted)
    next =>
      -- a member of another name is stored, so it may be passed over
      rw [if_pos (Outline.isWhole_of_fits first)]
      exact ih (Outline.membersFit_iff.mpr others) slots

theorem settle_explains (fields : Fields ρ σ) (slots : σ) :
    fields.settle slots ≠ .error .malformed := by
  induction fields with
  | done => exact ok_ne_malformed _
  | field head rest ih =>
    obtain ⟨slot, slots⟩ := slots
    rw [settle]
    split
    · exact map_ne_malformed (ih slots) _
    · exact content_ne_malformed _

theorem ofItems_explains {fields : Fields ρ σ} (law : fields.Explain) (short : Nat → Problem)
    {room : Nat} {items : List Outline} (fitting : Outline.allFit room items = true)
    (position : Nat) :
    fields.ofItems .stored short true position items ≠ .error .malformed := by
  induction fields generalizing position items with
  | done => exact ok_ne_malformed _
  | field head rest ih =>
    obtain ⟨first, others⟩ := law
    cases items with
    | nil =>
      rw [ofItems, if_pos rfl]
      split
      · exact map_ne_malformed (ih others fitting _) _
      · exact content_ne_malformed _
    | cons item items =>
      obtain ⟨here, behind⟩ := List.forall_mem_cons.mp (Outline.allFit_iff.mp fitting)
      refine bind_ne_malformed (first here) fun value _ => ?_
      refine bind_ne_malformed (ih others (Outline.allFit_iff.mpr behind) _) fun read _ => ?_
      exact ok_ne_malformed _

end Fields

theorem Record.explains {τ : Type} {record : Record τ} (law : record.fields.Explain) :
    record.codec.Explains := by
  intro room outline fitting
  cases outline with
  | object members closed =>
    obtain _ | room := room
    · cases fitting
    · rw [Outline.fits, Bool.and_eq_true] at fitting
      obtain ⟨fitting, rfl⟩ := fitting
      refine map_ne_malformed (bind_ne_malformed ?_ fun slots _ => ?_) _
      · exact Fields.acceptAll_explains law fitting _
      · exact Fields.settle_explains _ slots
  | array items closed =>
    obtain _ | room := room
    · cases fitting
    · rw [Outline.fits, Bool.and_eq_true] at fitting
      obtain ⟨fitting, rfl⟩ := fitting
      refine bind_ne_malformed (Fields.ofItems_explains law _ fitting 0) fun read _ => ?_
      refine bind_ne_malformed ?_ fun _ _ => ok_ne_malformed _
      unfold checkEnd
      split
      · exact ok_ne_malformed ()
      · exact content_ne_malformed _
  | null | boolean | number | text | broken =>
    exact Codec.mismatch_explains fitting (.record record.name)

end DeclarationDocs.Json
