import DeclarationDocs.Json.Value

/-!
# Codecs

A codec writes the values of a type and reads them back from an outline. An outline is decoded
either while its text is being read or after it has been stored whole; the two ways agree except in
what they say about a few ill-formed values.
-/

namespace DeclarationDocs.Json

/-- How an outline reaches its decoder. -/
inductive Source where
  /-- While the text is being read. -/
  | live
  /-- After it has been stored whole. -/
  | stored
deriving DecidableEq

/-- The written form of a type. -/
structure Codec (α : Type) where
  encode : α → Value
  decode : Source → Outline → Except ReadError α

namespace Codec

variable {α β : Type}

/-! ## Whole documents -/

/-- Read a whole text. A value that decodes must not be followed by anything. -/
def read (codec : Codec α) (text : String) : Except ReadError α := do
  let document := Document.ofText text
  let value ← codec.decode .live document.root
  if document.endsThere then return value else throw .malformed

def write (codec : Codec α) (value : α) : String := (codec.encode value).toText

/-! ## Leaves -/

def text : Codec String where
  encode := .text
  decode _ outline :=
    match outline with
    | .text (some content) => .ok content
    | outline => .error (outline.mismatch .text)

/-- Positions in a list, as 64-bit numbers. -/
def index : Codec UInt64 where
  encode position := .natural position.toNat
  decode _ outline :=
    match outline with
    | .number (some (.integer value)) =>
      if value < 0 then .error (.content (.negativeIndex value))
      else .ok (UInt64.ofNat value.toNat)
    | outline => .error (outline.mismatch .index)

def along (codec : Codec α) (toOther : α → β) (ofOther : β → α) : Codec β where
  encode value := codec.encode (ofOther value)
  decode source outline := (codec.decode source outline).map toOther

/-- A value that may be missing, written as null. -/
def optional (codec : Codec α) : Codec (Option α) where
  encode
    | none => .null
    | some value => codec.encode value
  decode source outline :=
    match outline with
    | .null => .ok none
    | outline => (codec.decode source outline).map some

def list (codec : Codec α) : Codec (List α) where
  encode items := .array (items.map codec.encode)
  decode source outline :=
    match outline with
    | .array items closed => do
      let decoded ← items.mapM (codec.decode source)
      if closed then return decoded else throw .malformed
    | outline => .error (outline.mismatch .sequence)

/-! ## Named variants -/

def variant? (known : List α) (name : α → String) (given : String) : Except ReadError α :=
  (variantNamed known name given).mapError .content

/-- A value beside a variant's name must say nothing: null, or an empty object in a stored
outline. -/
def nothing (source : Source) : Outline → Except ReadError Unit
  | .null => .ok ()
  | outline =>
    match source, outline with
    | .stored, .object [] true => .ok ()
    | _, outline => .error (outline.mismatch .unit)

/-- The variant that the one member of an object names. While the text is being read, only a string is
taken in the place of the name, as in any object: a value of another type there is malformed. -/
def soleVariant (source : Source) (known : List α) (name : α → String) (closed : Bool) :
    List (Key × Outline) → Except ReadError α
  | [(.named given, value)] => do
    let variant ← variant? known name given
    nothing source value
    if closed then return variant else throw .malformed
  | (.named given, value) :: _ :: _ =>
    match source with
    | .live => do
      let _ ← variant? known name given
      nothing source value
      throw .malformed
    | .stored => .error (.content .notSingleMember)
  | _ =>
    match source with
    | .live => .error .malformed
    | .stored => .error (.content .notSingleMember)

/-- One of several variants without content, written as its name and read from its name or from an
object whose one member is the name. -/
def variants (known : List α) (name : α → String) : Codec α where
  encode value := .text (name value)
  decode source outline :=
    match outline with
    | .text (some given) => variant? known name given
    | .object members closed => soleVariant source known name closed members
    | outline =>
      match source with
      | .live => .error .malformed
      | .stored => .error (outline.mismatch .textOrMap)

end Codec

end DeclarationDocs.Json
