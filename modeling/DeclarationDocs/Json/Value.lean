import DeclarationDocs.Json.Outline

/-!
# JSON values to be written

The values the library writes are made of null, natural numbers, strings, arrays and objects. They
are written without blanks, and members stay in the order in which they are given.
-/

namespace DeclarationDocs.Json

/-- A value to be written. -/
inductive Value where
  | null
  | natural (n : Nat)
  | text (content : String)
  | array (items : List Value)
  | object (members : List (String × Value))

namespace Value

mutual

def write : Value → List Char
  | .null => ['n', 'u', 'l', 'l']
  | .natural n => Nat.toDigits 10 n
  | .text content => writeText content
  | .array [] => ['[', ']']
  | .array (item :: rest) => '[' :: item.write ++ writeItems rest
  | .object [] => ['\x7b', '\x7d']
  | .object ((name, value) :: rest) =>
    '\x7b' :: writeText name ++ ':' :: value.write ++ writeMembers rest

/-- The text of the further items of an array, up to its end. -/
def writeItems : List Value → List Char
  | [] => [']']
  | item :: rest => ',' :: item.write ++ writeItems rest

/-- The text of the further members of an object, up to its end. -/
def writeMembers : List (String × Value) → List Char
  | [] => ['\x7d']
  | (name, value) :: rest =>
    ',' :: writeText name ++ ':' :: value.write ++ writeMembers rest

end

def toText (value : Value) : String := String.ofList value.write

mutual

def outline : Value → Outline
  | .null => .null
  | .natural n => .number (some (.integer n))
  | .text content => .text (some content)
  | .array items => .array (outlines items) true
  | .object members => .object (memberOutlines members) true

def outlines : List Value → List Outline
  | [] => []
  | item :: rest => item.outline :: outlines rest

def memberOutlines : List (String × Value) → List (Key × Outline)
  | [] => []
  | (name, value) :: rest => (.named name, value.outline) :: memberOutlines rest

end

end Value

end DeclarationDocs.Json
