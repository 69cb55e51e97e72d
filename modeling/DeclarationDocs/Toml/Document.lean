import DeclarationDocs.Toml.Scalar

/-!
# TOML documents

A text is read into statements, one to a line, and the statements are put together into a table. A
document is well formed or it is not; where it breaks off does not matter.
-/

namespace DeclarationDocs.Toml

/-! ## Blanks and line ends -/

def dropBlanks (text : List Char) : List Char := text.dropWhile fun c => c = ' ' || c = '\t'

def dropComment : List Char → List Char
  | '#' :: rest => rest.dropWhile Text.isPlain
  | text => text

def nextLine? : List Char → Option (List Char)
  | [] => some []
  | '\n' :: rest => some rest
  | '\r' :: '\n' :: rest => some rest
  | _ => none

/-- The next line, when only blanks and a comment are left in this one. -/
def endLine? (text : List Char) : Option (List Char) := nextLine? (dropComment (dropBlanks text))

def startsBreak : List Char → Bool
  | '\n' :: _ => true
  | '\r' :: '\n' :: _ => true
  | _ => false

/-- Drop blanks, line endings and whole comments, at most as many as `fuel`. -/
def dropSpace : Nat → List Char → List Char
  | 0, text => text
  | fuel + 1, text =>
    let text := dropBlanks text
    let afterComment := dropComment text
    if startsBreak afterComment then dropSpace fuel (Text.dropBreak afterComment) else text

/-! ## Keys -/

def isBare (c : Char) : Bool := c.isAlphanum || c = '_' || c = '-'

def simpleKey? (text : List Char) : Option (String × List Char) :=
  match text with
  | '"' :: rest => (Text.basic? rest).map fun (chars, rest) => (String.ofList chars, rest)
  | '\x27' :: rest => (Text.literal? rest).map fun (chars, rest) => (String.ofList chars, rest)
  | text =>
    if (text.takeWhile isBare).isEmpty then none
    else some (String.ofList (text.takeWhile isBare), text.dropWhile isBare)

/-- The parts of a key with dots, at most `parts` of them. Blanks may stand around each part. -/
def keyParts? : Nat → List Char → Option (List String × List Char)
  | 0, _ => none
  | parts + 1, text => do
    let (part, rest) ← simpleKey? (dropBlanks text)
    match dropBlanks rest with
    | '.' :: rest => do
      let (others, rest) ← keyParts? parts rest
      return (part :: others, rest)
    | rest => return ([part], rest)

/-- How many parts a key may have. -/
def mostParts : Nat := 79

def key? (text : List Char) : Option (KeyPath × List Char) := do
  let (parts, rest) ← keyParts? mostParts text
  let key ← parts.getLast?
  return (⟨parts.dropLast, key⟩, rest)

/-! ## Values -/

abbrev ItemReader := List Char → Option (Item × List Char)

/-- The items of an array and its closing bracket, at most as many as `fuel`. -/
def items? (read : ItemReader) : Nat → List Char → Option (List Item × List Char)
  | 0, _ => none
  | fuel + 1, text =>
    match dropSpace text.length text with
    | ']' :: rest => some ([], rest)
    | text => do
      let (item, rest) ← read text
      match dropSpace rest.length rest with
      | ',' :: rest => do
        let (others, rest) ← items? read fuel rest
        return (item :: others, rest)
      | ']' :: rest => return ([item], rest)
      | _ => none

def pair? (read : ItemReader) (text : List Char) : Option ((KeyPath × Item) × List Char) := do
  let (path, rest) ← key? text
  let rest ← Scalar.expect? '=' rest
  let (item, rest) ← read (dropBlanks rest)
  return ((path, item), rest)

/-- The pairs of an inline table and its closing brace, at most as many as `fuel`. -/
def pairs? (read : ItemReader) : Nat → List Char → Option (List (KeyPath × Item) × List Char)
  | 0, _ => none
  | fuel + 1, text => do
    let (pair, rest) ← pair? read text
    match dropBlanks rest with
    | ',' :: rest => do
      let (others, rest) ← pairs? read fuel rest
      return (pair :: others, rest)
    | '\x7d' :: rest => return ([pair], rest)
    | _ => none

def inlineTable? (read : ItemReader) (text : List Char) : Option (Item × List Char) :=
  match dropBlanks text with
  | '\x7d' :: rest => some (.inlineTable .stated [], rest)
  | text => do
    let (pairs, rest) ← pairs? read text.length text
    let entries ← Entries.ofPairs? pairs
    return (.inlineTable .stated entries, rest)

/-- A value with arrays and inline tables at most `room` deep. -/
def item? : Nat → List Char → Option (Item × List Char)
  | 0, text =>
    match text with
    | '[' :: _ => none
    | '\x7b' :: _ => none
    | text => leaf? text
  | room + 1, text =>
    match text with
    | '[' :: rest => (items? (item? room) rest.length rest).map fun (items, rest) =>
        (.array items, rest)
    | '\x7b' :: rest => inlineTable? (item? room) rest
    | text => leaf? text
where
  /-- A value that holds no others. -/
  leaf? (text : List Char) : Option (Item × List Char) :=
    match text with
    | '"' :: _ => string? text
    | '\x27' :: _ => string? text
    | text => Scalar.read? text
  /-- A string. -/
  string? (text : List Char) : Option (Item × List Char) :=
    (Text.read? text).map fun (chars, rest) => (.text (String.ofList chars), rest)

/-- How deep arrays and inline tables may be nested. -/
def deepest : Nat := 79

/-! ## Statements -/

def header? (text : List Char) : Option (Statement × List Char) :=
  match text with
  | '[' :: rest => do
    let (path, rest) ← key? rest
    let rest ← Scalar.expect? ']' rest
    let rest ← Scalar.expect? ']' rest
    return (.listHeader path, rest)
  | text => do
    let (path, rest) ← key? text
    let rest ← Scalar.expect? ']' rest
    return (.header path, rest)

/-- The statement at the start of a line; the rest of the line is returned. -/
def statement? (text : List Char) : Option (Statement × List Char) :=
  match dropBlanks text with
  | '[' :: rest => header? rest
  | text =>
    if (dropComment text).isEmpty || startsBreak (dropComment text) then some (.blank, text)
    else (pair? (item? deepest) text).map fun ((path, item), rest) => (.pair path item, rest)

def statements? : Nat → List Char → Option (List Statement)
  | _, [] => some []
  | 0, _ => none
  | fuel + 1, text => do
    let (statement, rest) ← statement? text
    let rest ← endLine? rest
    let others ← statements? fuel rest
    return statement :: others

def dropMark : List Char → List Char
  | '\ufeff' :: rest => rest
  | text => text

/-- The entries of the document in a text; none when the text is malformed. -/
def read? (text : String) : Option Entries :=
  let chars := dropMark text.toList
  (statements? chars.length chars).bind Entries.ofStatements?

end DeclarationDocs.Toml
