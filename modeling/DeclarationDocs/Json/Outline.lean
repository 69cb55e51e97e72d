import DeclarationDocs.Json.Token

/-!
# Outlines of JSON documents

An outline is what a text says up to the first place where it stops being JSON. Arrays and objects
that were not closed by then are marked, and a value that never came is `broken`. Decoders walk an
outline in the order of the text, and so they find the first thing that is wrong with it, be it in
the content or in the grammar.

Main definitions: `Outline.ofTokens` builds the outline of the value at the start of a token list,
and `Outline.isWhole` and `Outline.fits` tell a value that may be passed over from one that may be
stored.
-/

namespace DeclarationDocs.Json

/-- The string that names a member of an object. -/
inductive Key where
  | named (name : String)
  /-- A string with half a pair. -/
  | unreadable
deriving DecidableEq

/-- What a text says, up to the first place where it stops being JSON. -/
inductive Outline where
  | null
  | boolean (value : Bool)
  | number (value : Option Number)
  | text (value : Option String)
  | array (items : List Outline) (closed : Bool)
  | object (members : List (Key × Outline)) (closed : Bool)
  | broken

namespace Outline

/-- How an outline is named in a message when something else was expected; a value that cannot be
read has no name. -/
def found? : Outline → Option Found
  | .null => some .null
  | .boolean value => some (.boolean value)
  | .number value => value.map Number.found
  | .text value => value.map .text
  | .array .. => some .sequence
  | .object .. => some .map
  | .broken => none

/-- The complaint about an outline that is not what was expected. -/
def mismatch (outline : Outline) (expected : Expected) : ReadError :=
  match outline.found? with
  | some found => .content (.invalidType found expected)
  | none => .malformed

/-! ## Passing over and storing -/

mutual

/-- Whether the text of a value is complete. Such a value may be passed over, even if its numbers or
strings cannot be read. -/
def isWhole : Outline → Bool
  | .array items closed => areWhole items && closed
  | .object members closed => membersAreWhole members && closed
  | .broken => false
  | _ => true

def areWhole : List Outline → Bool
  | [] => true
  | item :: rest => item.isWhole && areWhole rest

def membersAreWhole : List (Key × Outline) → Bool
  | [] => true
  | (_, value) :: rest => value.isWhole && membersAreWhole rest

end

mutual

/-- Whether a value can be read completely and has containers at most `room` deep. Such a value may
be stored, to be decoded later. -/
def fits : Nat → Outline → Bool
  | room + 1, .array items closed => allFit room items && closed
  | room + 1, .object members closed => membersFit room members && closed
  | 0, .array .. => false
  | 0, .object .. => false
  | _, .number value => value.isSome
  | _, .text value => value.isSome
  | _, .broken => false
  | _, .null => true
  | _, .boolean _ => true

def allFit : Nat → List Outline → Bool
  | _, [] => true
  | room, item :: rest => item.fits room && allFit room rest

def membersFit : Nat → List (Key × Outline) → Bool
  | _, [] => true
  | room, (.named _, value) :: rest => value.fits room && membersFit room rest
  | _, _ :: _ => false

end

/-! ## From tokens -/

/-- An open container around the place that is being read. What has been read of it is listed
backwards. -/
inductive Frame where
  | array (items : List Outline)
  | object (members : List (Key × Outline)) (key : Key)

def Frame.leaveOpen : Frame → Outline → Outline
  | .array items, last => .array (last :: items).reverse false
  | .object members key, last => .object ((key, last) :: members).reverse false

/-- The outline of a text that breaks off after a value, inside the given containers. -/
def leaveAllOpen (frames : List Frame) (last : Outline) : Outline :=
  frames.foldl (fun outline frame => frame.leaveOpen outline) last

/-- What may come next. -/
inductive Place where
  | value
  /-- After the opening bracket of an array. -/
  | firstItem
  /-- After a value of an array. -/
  | afterItem (items : List Outline)
  /-- After the opening brace of an object. -/
  | firstKey
  /-- After a comma in an object. -/
  | nextKey (members : List (Key × Outline))
  | colon (members : List (Key × Outline)) (key : Key)
  /-- After a value of an object. -/
  | afterMember (members : List (Key × Outline))

/-- The outline of a text that breaks off at a place inside the given containers. -/
def breakOff (frames : List Frame) : Place → Outline
  | .value => leaveAllOpen frames .broken
  | .firstItem => leaveAllOpen frames (.array [] false)
  | .afterItem items => leaveAllOpen frames (.array items.reverse false)
  | .firstKey => leaveAllOpen frames (.object [] false)
  | .nextKey members => leaveAllOpen frames (.object members.reverse false)
  | .colon members key => leaveAllOpen (.object members key :: frames) .broken
  | .afterMember members => leaveAllOpen frames (.object members.reverse false)

/-- What a token leads to. -/
inductive Step where
  /-- Reading goes on at a place inside containers. -/
  | proceed (place : Place) (frames : List Frame)
  /-- The outermost value is complete. -/
  | finish (outline : Outline)
  /-- The token has no business here. -/
  | stop (outline : Outline)

/-- A value is complete; it goes into the innermost container. -/
def complete (outline : Outline) : List Frame → Step
  | [] => .finish outline
  | .array items :: frames => .proceed (.afterItem (outline :: items)) frames
  | .object members key :: frames => .proceed (.afterMember ((key, outline) :: members)) frames

def startValue (frames : List Frame) : Token → Step
  | .null => complete .null frames
  | .boolean value => complete (.boolean value) frames
  | .number value => complete (.number value) frames
  | .text value => complete (.text value) frames
  | .openArray => .proceed .firstItem frames
  | .openObject => .proceed .firstKey frames
  | _ => .stop (breakOff frames .value)

def keyOf : Option String → Key
  | some name => .named name
  | none => .unreadable

def step (frames : List Frame) : Place → Token → Step
  | .value, token => startValue frames token
  | .firstItem, .closeArray => complete (.array [] true) frames
  | .firstItem, token => startValue (.array [] :: frames) token
  | .afterItem items, .comma => .proceed .value (.array items :: frames)
  | .afterItem items, .closeArray => complete (.array items.reverse true) frames
  | .firstKey, .closeObject => complete (.object [] true) frames
  | .firstKey, .text name => .proceed (.colon [] (keyOf name)) frames
  | .nextKey members, .text name => .proceed (.colon members (keyOf name)) frames
  | .colon members key, .colon => .proceed .value (.object members key :: frames)
  | .afterMember members, .comma => .proceed (.nextKey members) frames
  | .afterMember members, .closeObject => complete (.object members.reverse true) frames
  | place, _ => .stop (breakOff frames place)

/-- Read on from a place. The tokens behind the outermost value are returned with it when it is
complete. -/
def readFrom (frames : List Frame) (place : Place) : List Token → Outline × Option (List Token)
  | [] => (breakOff frames place, none)
  | token :: rest =>
    match step frames place token with
    | .proceed place frames => readFrom frames place rest
    | .finish outline => (outline, some rest)
    | .stop outline => (outline, none)

/-- The outline of the value at the start of a token list, and the tokens behind it. -/
def ofTokens (tokens : List Token) : Outline × Option (List Token) :=
  readFrom [] .value tokens

end Outline

/-- A document: the outline of its value, and whether nothing follows the value. -/
structure Document where
  root : Outline
  endsThere : Bool

def Document.ofText (text : String) : Document :=
  match Outline.ofTokens (Token.scan text.toList) with
  | (root, some []) => ⟨root, true⟩
  | (root, _) => ⟨root, false⟩

end DeclarationDocs.Json
