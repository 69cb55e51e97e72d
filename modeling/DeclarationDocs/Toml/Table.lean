/-!
# TOML tables

A document is a table. It is put together from the statements of the text: a header opens a table or
adds one to a list of tables, and a key and its value go into the table opened last. How a table
came about decides what may still be added to it: a table on the way to a header may be opened
later, a table made by a dotted key takes further dotted keys only, and an inline table is closed.

Main definitions: `Entries.ofPairs?` puts together an inline table, `Entries.ofStatements?` a
document.
-/

namespace DeclarationDocs.Toml

/-- How a table came about. -/
inductive Origin where
  /-- By a header or by braces of its own. -/
  | stated
  /-- On the way to the table of another header. -/
  | passage
  /-- On the way to a dotted key. -/
  | dotted
deriving DecidableEq

/-- A value in a document. -/
inductive Item where
  | text (content : String)
  | integer (value : Int)
  | real (value : Float)
  | boolean (value : Bool)
  | dateTime
  | array (items : List Item)
  | inlineTable (origin : Origin) (entries : List (String × Item))
  | table (origin : Origin) (entries : List (String × Item))
  | tables (elements : List (List (String × Item)))

/-- The entries of a table, in the order in which they were made. -/
abbrev Entries := List (String × Item)

/-- A key with dots: the tables on the way and the key in the last of them. -/
structure KeyPath where
  tables : List String
  key : String
deriving DecidableEq

namespace Entries

def get? (entries : Entries) (key : String) : Option Item :=
  (entries.find? (·.1 = key)).map Prod.snd

def replace (entries : Entries) (key : String) (item : Item) : Entries :=
  entries.map fun entry => if entry.1 = key then (key, item) else entry

def remove (entries : Entries) (key : String) : Entries := entries.filter (·.1 ≠ key)

def add? (entries : Entries) (key : String) (item : Item) : Option Entries :=
  if (entries.get? key).isSome then none else some (entries ++ [(key, item)])

/-! ## Dotted keys -/

/-- Add a key with dots to an inline table. The tables on the way must have been made by dotted
keys. -/
def addInline? (key : String) (item : Item) : List String → Entries → Option Entries
  | [], entries => entries.add? key item
  | table :: path, entries =>
    match entries.get? table with
    | none => do
      let inner ← addInline? key item path []
      return entries ++ [(table, .inlineTable .dotted inner)]
    | some (.inlineTable .dotted inner) => do
      let inner ← addInline? key item path inner
      return entries.replace table (.inlineTable .dotted inner)
    | some _ => none

def ofPairs? (pairs : List (KeyPath × Item)) : Option Entries :=
  pairs.foldlM (fun entries (path, item) => addInline? path.key item path.tables entries) []

/-- Add a key with dots to a table. The way leads through tables that have no header of their own,
and it ends in one made by a dotted key. -/
def addDotted? (key : String) (item : Item) : List String → Entries → Option Entries
  | [], entries => entries.add? key item
  | table :: path, entries =>
    match entries.get? table with
    | none => do
      let inner ← addDotted? key item path []
      return entries ++ [(table, .table .dotted inner)]
    | some (.table .dotted inner) => do
      let inner ← addDotted? key item path inner
      return entries.replace table (.table .dotted inner)
    | some (.table .passage inner) => do
      guard (!path.isEmpty)
      let inner ← addDotted? key item path inner
      return entries.replace table (.table .passage inner)
    | some (.tables elements) => do
      guard (!path.isEmpty)
      let last ← elements.getLast?
      let last ← addDotted? key item path last
      return entries.replace table (.tables (elements.dropLast ++ [last]))
    | some _ => none

/-! ## Headers -/

/-- Change the table at the end of a way of headers. Tables on the way that do not exist are made;
a list of tables is entered at its last element. -/
def within? (change : Entries → Option Entries) : List String → Entries → Option Entries
  | [], entries => change entries
  | table :: path, entries =>
    match entries.get? table with
    | none => do
      let inner ← within? change path []
      return entries ++ [(table, .table .passage inner)]
    | some (.table origin inner) => do
      let inner ← within? change path inner
      return entries.replace table (.table origin inner)
    | some (.tables elements) => do
      let last ← elements.getLast?
      let last ← within? change path last
      return entries.replace table (.tables (elements.dropLast ++ [last]))
    | some _ => none

/-- Open the table of a header. A table that only lay on the way to others is opened now and moves
to the end; any other table is not opened again. -/
def openTable? (key : String) (entries : Entries) : Option Entries :=
  match entries.get? key with
  | none => some (entries ++ [(key, .table .stated [])])
  | some (.table .passage inner) => some (entries.remove key ++ [(key, .table .stated inner)])
  | some _ => none

def appendTable? (key : String) (entries : Entries) : Option Entries :=
  match entries.get? key with
  | none => some (entries ++ [(key, .tables [[]])])
  | some (.tables elements) => some (entries.replace key (.tables (elements ++ [[]])))
  | some _ => none

end Entries

/-! ## Documents -/

/-- A statement of a document. -/
inductive Statement where
  | header (path : KeyPath)
  | listHeader (path : KeyPath)
  | pair (path : KeyPath) (item : Item)
  | blank

/-- A document that is being put together: its entries and the way to the table opened last. -/
structure Assembly where
  root : Entries
  current : List String

namespace Assembly

def take? (assembly : Assembly) : Statement → Option Assembly
  | .blank => some assembly
  | .header path => do
    let root ← Entries.within? (Entries.openTable? path.key) path.tables assembly.root
    return ⟨root, path.tables ++ [path.key]⟩
  | .listHeader path => do
    let root ← Entries.within? (Entries.appendTable? path.key) path.tables assembly.root
    return ⟨root, path.tables ++ [path.key]⟩
  | .pair path item => do
    let root ← Entries.within? (Entries.addDotted? path.key item path.tables) assembly.current
      assembly.root
    return { assembly with root }

end Assembly

/-- The entries of a document; none when its statements contradict each other. -/
def Entries.ofStatements? (statements : List Statement) : Option Entries :=
  (statements.foldlM Assembly.take? (⟨[], []⟩ : Assembly)).map Assembly.root

end DeclarationDocs.Toml
