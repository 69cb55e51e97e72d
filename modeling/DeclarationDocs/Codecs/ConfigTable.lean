import DeclarationDocs.Codecs.Config
import DeclarationDocs.Toml.Document

/-!
# Configurations in tables

A configuration is read from the entries of a TOML document, in the order in which they were made.
An entry overrides the default of the setting it names; other entries are ignored. A level is a text
or a table whose one key is the level's name. The log settings are a table, or an array that gives
them by position.
-/

namespace DeclarationDocs

open Toml

namespace Toml.Item

/-- How a value is named in a message when something else was expected. -/
def found : Item → Found
  | .text content => .text content
  | .integer value => .integer value
  | .real value => .real (Decimal.spell .full value)
  | .boolean value => .boolean value
  | .dateTime => .map
  | .array _ => .sequence
  | .inlineTable .. => .map
  | .table .. => .map
  | .tables _ => .sequence

def typeName : Item → String
  | .text _ => "string"
  | .integer _ => "integer"
  | .real _ => "float"
  | .boolean _ => "boolean"
  | .dateTime => "datetime"
  | .array _ => "array"
  | .inlineTable .. => "inline table"
  | .table .. => "table"
  | .tables _ => "array of tables"

/-- The entries of a table, whether it is written inline or under a header. -/
def entries? : Item → Option Entries
  | .inlineTable _ entries => some entries
  | .table _ entries => some entries
  | _ => none

end Toml.Item

namespace DiagnosticLevel

def checkEmpty (item : Item) : Except Problem Unit :=
  match item.entries? with
  | some entries => if entries.isEmpty then .ok () else .error .tableNotEmpty
  | none =>
    match item with
    | .array items => if items.isEmpty then .ok () else .error .tableNotEmpty
    | .tables elements => if elements.isEmpty then .ok () else .error .listNotEmpty
    | item => .error (.notTable item.typeName)

def ofItem (item : Item) : Except Problem DiagnosticLevel :=
  match item with
  | .text given => variantNamed all name given
  | item =>
    match item.entries? with
    | none => .error .notTextOrTable
    | some [] => .error .noEntry
    | some [(given, content)] => do
      let level ← variantNamed all name given
      checkEmpty content
      return level
    | some _ => .error .severalEntries

end DiagnosticLevel

namespace LogConfig

def filterOfItem : Item → Except Problem LogConfig
  | .text filter => .ok ⟨filter⟩
  | item => .error (.invalidType item.found .text)

/-- The log settings in a document. A date-time is a table without any known key. -/
def ofItem (item : Item) : Except Problem LogConfig :=
  match item with
  | .dateTime => .ok standard
  | .array [] => .ok standard
  | .array (first :: _) => filterOfItem first
  | .tables [] => .ok standard
  | .tables (first :: _) => filterOfItem (.table .stated first)
  | item =>
    match item.entries? with
    | some entries =>
      match entries.get? "filter" with
      | some filter => filterOfItem filter
      | none => .ok standard
    | none => .error (.invalidType item.found (.record record.name))

end LogConfig

namespace Config

/-- Let an entry of a document override the setting it names. -/
def override (config : Config) (entry : String × Item) : Except Problem Config :=
  if entry.1 = "missing_overload_fragments" then
    (DiagnosticLevel.ofItem entry.2).map fun level =>
      { config with missingOverloadFragments := level }
  else if entry.1 = "tracing" then
    (LogConfig.ofItem entry.2).map fun log => { config with log }
  else .ok config

def ofEntries (entries : Entries) : Except Problem Config := entries.foldlM override standard

def read (text : String) : Except ReadError Config :=
  match Toml.read? text with
  | some entries => (ofEntries entries).mapError .content
  | none => .error .malformed

end Config

end DeclarationDocs
