import DeclarationDocs.Proofs.Codecs.RoundTrip
import DeclarationDocs.Proofs.Json.Assembly
import DeclarationDocs.Proofs.Toml.JsonCounterparts

/-!
# Configurations over the defaults

A document that gives a level and a filter is a configuration when the level is known and the filter
is a text. What it does not give keeps its default. Nothing else in the document matters, and an
object with the same members is read as the same configuration.

Main statement: `Config.read_overlays_defaults`.
-/

namespace DeclarationDocs

open Toml Json

/-! ## Levels -/

theorem variantNamed_eq_ok_iff {α : Type} {known : List α} {name : α → String}
    (complete : ∀ a, a ∈ known) (injective : ∀ {a b}, name a = name b → a = b) {given : String}
    {a : α} : variantNamed known name given = .ok a ↔ name a = given := by
  unfold variantNamed
  cases found : known.find? fun variant => name variant = given with
  | none =>
    have unknown := List.find?_eq_none.mp found a (complete a)
    exact iff_of_false nofun (by simpa using unknown)
  | some b =>
    have named : name b = given := by simpa using List.find?_some found
    constructor
    · rintro ⟨⟩
      exact named
    · intro same
      rw [injective (named.trans same.symm)]

namespace DiagnosticLevel

/-- The name of the level in an entry of a document, if there is such an entry: a text, or the one
key of a table over an empty table. -/
inductive Gives : Option Item → Option String → Prop where
  | absent : Gives none none
  | text (name : String) : Gives (some (.text name)) (some name)
  | keyed {item content : Item} {name : String} (keyed : item.entries? = some [(name, content)])
    (empty : content.entries? = some []) : Gives (some item) (some name)

theorem ofItem_keyed {item content : Item} {name : String}
    (keyed : item.entries? = some [(name, content)]) (empty : content.entries? = some []) :
    ofItem item = variantNamed all DiagnosticLevel.name name := by
  have checked : checkEmpty content = .ok () := by
    unfold checkEmpty
    rw [empty]
    rfl
  have read : ofItem item = do
      let level ← variantNamed all DiagnosticLevel.name name
      checkEmpty content
      return level := by
    cases item with
    | inlineTable | table =>
      obtain rfl := Option.some.inj keyed
      rfl
    | _ => cases keyed
  rw [read, checked]
  cases variantNamed all DiagnosticLevel.name name <;> rfl

theorem setting_eq_ok_iff {item : Option Item} {given : Option String} (gives : Gives item given)
    {level : DiagnosticLevel} :
    item.elim (.ok standard) ofItem = .ok level ↔ level.name = given.getD standard.name := by
  have known {given : String} :
      variantNamed all DiagnosticLevel.name given = .ok level ↔ level.name = given :=
    variantNamed_eq_ok_iff mem_all name_injective
  cases gives with
  | absent =>
    constructor
    · rintro ⟨⟩
      rfl
    · intro same
      exact congrArg Except.ok (name_injective same.symm)
  | text given => exact known
  | keyed keyed empty =>
    rw [Option.elim_some, ofItem_keyed keyed empty]
    exact known

/-- A text and its counterpart are read as the same level. -/
theorem decode_eq_ok_iff_of_sameAs {source : Source} {name : String} {outline : Outline}
    (same : (Item.text name).SameAs outline) {level : DiagnosticLevel} :
    codec.decode source outline = .ok level ↔ ofItem (.text name) = .ok level := by
  rw [Item.SameAs] at same
  rw [same]
  exact mapError_eq_ok_iff

end DiagnosticLevel

/-! ## Log settings -/

namespace LogConfig

/-- The item that stands for the filter in an entry of a document, if there is one: the filter of a
table, or the first element of an array. -/
inductive Gives : Option Item → Option Item → Prop where
  | absent : Gives none none
  | table {item : Item} {entries : Entries} (table : item.entries? = some entries) :
    Gives (some item) (entries.get? "filter")
  | array (items : List Item) : Gives (some (.array items)) items.head?
  | tables (elements : List Entries) :
    Gives (some (.tables elements)) (elements.head?.map (.table .stated))

theorem filterOfItem_eq_ok_iff {item : Item} {log : LogConfig} :
    filterOfItem item = .ok log ↔ .text log.filter = item := by
  cases item with
  | text filter =>
    constructor
    · rintro ⟨⟩
      rfl
    · rintro ⟨⟩
      rfl
  | _ => exact iff_of_false nofun nofun

/-- What an item for the filter is read as, or the default when there is none. -/
theorem filter_eq_ok_iff {filter : Option Item} {log : LogConfig} :
    filter.elim (.ok standard) filterOfItem = .ok log
      ↔ .text log.filter = filter.getD (.text standard.filter) := by
  cases filter with
  | none => exact @filterOfItem_eq_ok_iff (.text standard.filter) log
  | some item => exact filterOfItem_eq_ok_iff

theorem ofItem_table {item : Item} {entries : Entries} (table : item.entries? = some entries) :
    ofItem item = (entries.get? "filter").elim (.ok standard) filterOfItem := by
  cases item with
  | inlineTable | table =>
    obtain rfl := Option.some.inj table
    unfold ofItem
    dsimp only [Item.entries?]
    split
    next filter found => rw [found, Option.elim_some]
    next absent => rw [absent, Option.elim_none]
  | _ => cases table

theorem setting_eq_ok_iff {item filter : Option Item} (gives : Gives item filter)
    {log : LogConfig} :
    item.elim (.ok standard) ofItem = .ok log
      ↔ .text log.filter = filter.getD (.text standard.filter) := by
  rw [← filter_eq_ok_iff]
  cases gives with
  | absent => rfl
  | table table => rw [Option.elim_some, ofItem_table table]
  | array items => cases items <;> rfl
  | tables elements => cases elements <;> rfl

theorem decode_text_eq_ok_iff {source : Source} {outline : Outline} {content : String} :
    Codec.text.decode source outline = .ok content ↔ outline = .text (some content) := by
  unfold Codec.text
  dsimp only
  split
  next => simp only [Except.ok.injEq, Outline.text.injEq, Option.some_inj]
  next other => exact iff_of_false nofun (other content)

/-- What stands for the filter and its counterpart are read as the same filter. -/
theorem filter_readFrom_iff {source : Source} {item : Option Item} {given : Option Outline}
    (same : Option.Rel Item.SameAs item given) (log : LogConfig) :
    (Field.withDefault "filter" .text standard.filter).ReadFrom source given log.filter
      ↔ item.elim (.ok standard) filterOfItem = .ok log := by
  rw [filter_eq_ok_iff]
  cases same with
  | none =>
    rw [Option.getD_none, Item.text.injEq]
    exact Option.some_inj.trans eq_comm
  | @some written outline same =>
    rw [Option.getD_some]
    refine decode_text_eq_ok_iff.trans ⟨fun text => ?_, fun text => ?_⟩
    · rw [text] at same
      exact (Item.sameAs_text_iff.mp same).symm
    · rw [← text, Item.SameAs] at same
      exact same

/-- A table and its counterpart are read as the same log settings. -/
theorem decode_eq_ok_iff_of_sameAs {source : Source} {item : Item} {entries : Entries}
    (table : item.entries? = some entries) (apart : (entries.map Prod.fst).Nodup)
    {outline : Outline} (same : item.SameAs outline) {log : LogConfig} :
    record.codec.decode source outline = .ok log ↔ ofItem item = .ok log := by
  obtain ⟨members, rfl, counterparts⟩ := Item.object_of_sameAs table same
  rw [Entries.decode_eq_ok_iff_of_sameAs record (by decide) source counterparts apart,
    ofItem_table table,
    ← filter_readFrom_iff (Entries.rel_of_sameAs counterparts apart "filter") log]
  constructor
  · rintro ⟨⟨filter, ⟨⟩⟩, ⟨read, -⟩, rfl⟩
    exact read
  · intro read
    exact ⟨(log.filter, ()), ⟨read, trivial⟩, rfl⟩

end LogConfig

/-! ## Documents -/

theorem Toml.Item.KeysApart.entries {item : Item} {entries : Entries} (law : item.KeysApart)
    (table : item.entries? = some entries) : entries.KeysApart := by
  cases item with
  | inlineTable =>
    obtain rfl := Option.some.inj table
    exact Item.keysApart_inlineTable.mp law
  | table =>
    obtain rfl := Option.some.inj table
    exact Item.keysApart_table.mp law
  | _ => cases table

/-- The name of the level and the item for the filter in a document. -/
structure Toml.Entries.Gives (entries : Entries) (level : Option String) (filter : Option Item) :
    Prop where
  level : DiagnosticLevel.Gives (entries.get? "missing_overload_fragments") level
  filter : LogConfig.Gives (entries.get? "tracing") filter

/-- The level is a text and the log settings are a table, if they are there. -/
structure Toml.Entries.IsPlain (entries : Entries) : Prop where
  level : ∀ item ∈ entries.get? "missing_overload_fragments", ∃ name, item = .text name
  log : ∀ item ∈ entries.get? "tracing", ∃ inner, item.entries? = some inner

namespace Config

/-- Each setting is read from its entry, and without one it stays as it was. -/
theorem foldlM_override_eq_ok_iff {entries : Entries} (apart : (entries.map Prod.fst).Nodup)
    {start config : Config} :
    entries.foldlM override start = .ok config
      ↔ (entries.get? "missing_overload_fragments").elim (.ok start.missingOverloadFragments)
          DiagnosticLevel.ofItem = .ok config.missingOverloadFragments
        ∧ (entries.get? "tracing").elim (.ok start.log) LogConfig.ofItem = .ok config.log := by
  induction entries generalizing start with
  | nil =>
    obtain ⟨level, log⟩ := start
    obtain ⟨level', log'⟩ := config
    show Except.ok (Config.mk level log) = Except.ok (Config.mk level' log')
      ↔ Except.ok level = Except.ok level' ∧ Except.ok log = Except.ok log'
    simp only [Except.ok.injEq, Config.mk.injEq]
  | cons entry entries ih =>
    obtain ⟨fresh, apart⟩ := List.nodup_cons.mp apart
    have absent {name : String} (same : entry.1 = name) : Entries.get? entries name = none :=
      Entries.get?_eq_none_iff.mpr fun other listed named =>
        fresh (List.mem_map.mpr ⟨other, listed, named.trans same.symm⟩)
    rw [List.foldlM_cons, Entries.get?_cons, Entries.get?_cons]
    by_cases level : entry.1 = "missing_overload_fragments"
    · have log : entry.1 ≠ "tracing" := by
        rw [level]
        decide
      rw [if_pos level, if_neg log, override, if_pos level, Option.elim_some]
      cases DiagnosticLevel.ofItem entry.2 with
      | error problem => exact iff_of_false nofun nofun
      | ok given =>
        -- no later entry has the key, so this level stays
        refine (ih apart).trans ?_
        rw [absent level]
        rfl
    · rw [if_neg level, override, if_neg level]
      by_cases log : entry.1 = "tracing"
      · rw [if_pos log, if_pos log, Option.elim_some]
        cases LogConfig.ofItem entry.2 with
        | error problem => exact iff_of_false nofun nofun
        | ok given =>
          refine (ih apart).trans ?_
          rw [absent log]
          rfl
      · rw [if_neg log, if_neg log]
        exact ih apart

theorem ofEntries_eq_ok_iff {entries : Entries} (law : entries.KeysApart) {config : Config} :
    ofEntries entries = .ok config
      ↔ (entries.get? "missing_overload_fragments").elim (.ok DiagnosticLevel.standard)
          DiagnosticLevel.ofItem = .ok config.missingOverloadFragments
        ∧ (entries.get? "tracing").elim (.ok LogConfig.standard) LogConfig.ofItem
          = .ok config.log :=
  foldlM_override_eq_ok_iff law.apart

theorem read_eq_ok_iff {text : String} {entries : Entries} (read : Toml.read? text = some entries)
    {config : Config} : Config.read text = .ok config ↔ ofEntries entries = .ok config := by
  rw [Config.read, read]
  exact mapError_eq_ok_iff

theorem read_eq_ok_iff_of_gives {text : String} {entries : Entries} {level : Option String}
    {filter : Option Item} (read : Toml.read? text = some entries)
    (gives : entries.Gives level filter) {config : Config} :
    Config.read text = .ok config
      ↔ config.missingOverloadFragments.name = level.getD DiagnosticLevel.standard.name
        ∧ .text config.log.filter = filter.getD (.text LogConfig.standard.filter) := by
  rw [read_eq_ok_iff read, ofEntries_eq_ok_iff (keysApart_of_read? read)]
  exact and_congr (DiagnosticLevel.setting_eq_ok_iff gives.level)
    (LogConfig.setting_eq_ok_iff gives.filter)

theorem exists_read_eq_ok_iff {text : String} {entries : Entries} {level : Option String}
    {filter : Option Item} (read : Toml.read? text = some entries)
    (gives : entries.Gives level filter) :
    (∃ config, Config.read text = .ok config)
      ↔ (∀ name ∈ level, name ∈ DiagnosticLevel.all.map DiagnosticLevel.name)
        ∧ ∀ item ∈ filter, ∃ content, item = .text content := by
  constructor
  · rintro ⟨config, done⟩
    obtain ⟨level, filter⟩ := (read_eq_ok_iff_of_gives read gives).mp done
    constructor
    · rintro name rfl
      exact List.mem_map.mpr ⟨_, DiagnosticLevel.mem_all _, level⟩
    · rintro item rfl
      exact ⟨_, filter.symm⟩
  · rintro ⟨known, text⟩
    have named : ∃ chosen : DiagnosticLevel,
        chosen.name = level.getD DiagnosticLevel.standard.name := by
      cases level with
      | none => exact ⟨DiagnosticLevel.standard, rfl⟩
      | some name =>
        obtain ⟨chosen, -, named⟩ := List.mem_map.mp (known name rfl)
        exact ⟨chosen, named⟩
    have filtered : ∃ content, .text content = filter.getD (.text LogConfig.standard.filter) := by
      cases filter with
      | none => exact ⟨_, rfl⟩
      | some item =>
        obtain ⟨content, rfl⟩ := text item rfl
        exact ⟨content, rfl⟩
    obtain ⟨chosen, named⟩ := named
    obtain ⟨content, filtered⟩ := filtered
    exact ⟨⟨chosen, ⟨content⟩⟩, (read_eq_ok_iff_of_gives read gives).mpr ⟨named, filtered⟩⟩

/-- An object with the members of a document is read as the document is. -/
theorem decode_eq_ok_iff_of_sameAs {entries : Entries} {members : List (Key × Outline)}
    (plain : entries.IsPlain) (law : entries.KeysApart) (same : entries.SameAs members)
    {source : Source} {config : Config} :
    record.codec.decode source (.object members true) = .ok config
      ↔ ofEntries entries = .ok config := by
  have level : (Field.withDefault "missing_overload_fragments" DiagnosticLevel.codec
      .standard).ReadFrom source (memberNamed? members "missing_overload_fragments")
      config.missingOverloadFragments ↔ _ :=
    readFrom_withDefault_iff (Entries.rel_of_sameAs same law.apart _) fun written same => by
      obtain ⟨name, rfl⟩ := plain.level _ written
      exact DiagnosticLevel.decode_eq_ok_iff_of_sameAs same
  have log : (Field.withDefault "tracing" LogConfig.record.codec .standard).ReadFrom source
      (memberNamed? members "tracing") config.log ↔ _ :=
    readFrom_withDefault_iff (Entries.rel_of_sameAs same law.apart _) fun written same => by
      obtain ⟨inner, table⟩ := plain.log _ written
      have innerLaw := (law.item_of_get? written).entries table
      exact LogConfig.decode_eq_ok_iff_of_sameAs table innerLaw.apart same
  rw [ofEntries_eq_ok_iff law, ← level, ← log]
  refine (Entries.decode_eq_ok_iff_of_sameAs record (by decide) source same law.apart).trans ?_
  constructor
  · rintro ⟨⟨level, log, ⟨⟩⟩, ⟨first, second, -⟩, rfl⟩
    exact ⟨first, second⟩
  · rintro ⟨first, second⟩
    exact ⟨(config.missingOverloadFragments, config.log, ()), ⟨first, second, trivial⟩, rfl⟩

end Config

end DeclarationDocs
