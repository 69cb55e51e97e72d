import DeclarationDocs.Text.Quoted

/-!
# What can be wrong with a document

A document is either malformed, which means that its text breaks the grammar of its format, or it is
well formed and its content is not what is asked for. The second kind has a cause, and
`Problem.message` is the one place where a cause is put into words.
-/

namespace DeclarationDocs

/-- What stands in a document where something else was expected. -/
inductive Found where
  | null
  | boolean (value : Bool)
  | integer (value : Int)
  /-- A number that is no integer, in the spelling of the document's format. -/
  | real (spelling : String)
  | text (value : String)
  | sequence
  | map
deriving DecidableEq, Inhabited

/-- What was expected. -/
inductive Expected where
  | text
  /-- A position in a list. -/
  | index
  | sequence
  | map
  | unit
  /-- A record of the given name. -/
  | record (name : String)
  /-- One of several records, of which a member tells which one it is. -/
  | tagged (name : String)
  | variantName
  | textOrMap
deriving DecidableEq, Inhabited

/-- Why the content of a well-formed document is refused. -/
inductive Problem where
  /-- A value has the wrong type. -/
  | invalidType (found : Found) (expected : Expected)
  /-- A position in a list is negative. -/
  | negativeIndex (value : Int)
  /-- A map that should name one variant has no member or several. -/
  | notSingleMember
  /-- A record written by position ends before a member that has to be there. -/
  | tooShort (given : Nat) (record : String) (members : Nat)
  /-- A record written by position goes on after its last member. -/
  | tooLong (given members : Nat)
  | duplicateMember (name : String)
  | missingMember (name : String)
  | unknownVariant (name : String) (known : List String)
  /-- A table entry that should name a variant is neither a text nor a table. -/
  | notTextOrTable
  /-- A table that should name one variant has no entry. -/
  | noEntry
  /-- A table that should name one variant has several entries. -/
  | severalEntries
  /-- The value beside a variant's name is no table. -/
  | notTable (found : String)
  /-- The table beside a variant's name has entries. -/
  | tableNotEmpty
  /-- The list of tables beside a variant's name has elements. -/
  | listNotEmpty
deriving DecidableEq, Inhabited

/-- Why a document cannot be read. -/
inductive ReadError where
  | malformed
  | content (problem : Problem)
deriving DecidableEq, Inhabited

/-! ## Wording -/

def backQuoted (word : String) : String := "\x60" ++ word ++ "\x60"

def countElements (n : Nat) : String :=
  toString n ++ (if n = 1 then " element" else " elements")

namespace Found

def describe : Found → String
  | null => "null"
  | boolean value => "boolean " ++ backQuoted (if value then "true" else "false")
  | integer value => "integer " ++ backQuoted (toString value)
  | real spelling => "floating point " ++ backQuoted spelling
  | text value => "string " ++ Text.quoted value
  | sequence => "sequence"
  | map => "map"

end Found

namespace Expected

def describe : Expected → String
  | text => "a string"
  | index => "usize"
  | sequence => "a sequence"
  | map => "a map"
  | unit => "unit"
  | record name => "struct " ++ name
  | tagged name => "internally tagged enum " ++ name
  | variantName => "variant identifier"
  | textOrMap => "string or map"

end Expected

/-- The names a reader may choose from: two are joined by a word, more are listed. -/
def oneOf : List String → String
  | [] => "there are no variants"
  | [only] => "expected " ++ backQuoted only
  | [first, second] => "expected " ++ backQuoted first ++ " or " ++ backQuoted second
  | names => "expected one of " ++ ", ".intercalate (names.map backQuoted)

namespace Problem

def message : Problem → String
  | invalidType found expected =>
    "invalid type: " ++ found.describe ++ ", expected " ++ expected.describe
  | negativeIndex value =>
    "invalid value: " ++ (Found.integer value).describe ++ ", expected " ++ Expected.index.describe
  | notSingleMember => "invalid value: map, expected map with a single key"
  | tooShort given record members =>
    "invalid length " ++ toString given ++ ", expected " ++ (Expected.record record).describe
      ++ " with " ++ countElements members
  | tooLong given members =>
    "invalid length " ++ toString given ++ ", expected " ++ countElements members ++ " in sequence"
  | duplicateMember name => "duplicate field " ++ backQuoted name
  | missingMember name => "missing field " ++ backQuoted name
  | unknownVariant name known => "unknown variant " ++ backQuoted name ++ ", " ++ oneOf known
  | notTextOrTable => "wanted string or table"
  | noEntry => "wanted exactly 1 element, found 0 elements"
  | severalEntries => "wanted exactly 1 element, more than 1 element"
  | notTable found => "expected table, found " ++ found
  | tableNotEmpty => "expected empty table"
  | listNotEmpty => "expected empty array"

end Problem

def variantNamed {α : Type} (known : List α) (name : α → String) (given : String) :
    Except Problem α :=
  match known.find? fun variant => name variant = given with
  | some variant => .ok variant
  | none => .error (.unknownVariant given (known.map name))

def ReadError.message : ReadError → String
  | .malformed => "malformed text"
  | .content problem => problem.message

end DeclarationDocs
