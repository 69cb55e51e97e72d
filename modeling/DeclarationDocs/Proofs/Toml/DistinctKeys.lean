import Mathlib.Data.List.Nodup
import Mathlib.Data.Option.Basic
import DeclarationDocs.Toml.Document

/-!
# Distinct keys

No table that is read from a text has two entries for one key, however deep it lies and however it
was written. An entry is only made under a key that has none, and one that is changed keeps its key;
a table that is opened by its header moves to the end as a whole.

Main statement: `keysApart_of_read?`.
-/

namespace DeclarationDocs.Toml

/-- No table in an item has two entries for one key. -/
inductive Item.KeysApart : Item → Prop where
  | text (content : String) : KeysApart (.text content)
  | integer (value : Int) : KeysApart (.integer value)
  | real (value : Float) : KeysApart (.real value)
  | boolean (value : Bool) : KeysApart (.boolean value)
  | dateTime : KeysApart .dateTime
  | array {items : List Item} (each : ∀ item ∈ items, item.KeysApart) : KeysApart (.array items)
  | inlineTable {origin : Origin} {entries : Entries} (apart : (entries.map Prod.fst).Nodup)
    (each : ∀ entry ∈ entries, entry.2.KeysApart) : KeysApart (.inlineTable origin entries)
  | table {origin : Origin} {entries : Entries} (apart : (entries.map Prod.fst).Nodup)
    (each : ∀ entry ∈ entries, entry.2.KeysApart) : KeysApart (.table origin entries)
  | tables {elements : List Entries} (apart : ∀ entries ∈ elements, (entries.map Prod.fst).Nodup)
    (each : ∀ entries ∈ elements, ∀ entry ∈ entries, entry.2.KeysApart) :
    KeysApart (.tables elements)

/-- A table has no two entries for one key, and neither has any table in it. -/
structure Entries.KeysApart (entries : Entries) : Prop where
  apart : (entries.map Prod.fst).Nodup
  each : ∀ entry ∈ entries, entry.2.KeysApart

namespace Item

theorem keysApart_inlineTable {origin : Origin} {entries : Entries} :
    (inlineTable origin entries).KeysApart ↔ entries.KeysApart := by
  constructor
  · rintro (_ | _ | _ | _ | _ | _ | ⟨apart, each⟩)
    exact ⟨apart, each⟩
  · rintro ⟨apart, each⟩
    exact .inlineTable apart each

theorem keysApart_table {origin : Origin} {entries : Entries} :
    (table origin entries).KeysApart ↔ entries.KeysApart := by
  constructor
  · rintro (_ | _ | _ | _ | _ | _ | _ | ⟨apart, each⟩)
    exact ⟨apart, each⟩
  · rintro ⟨apart, each⟩
    exact .table apart each

theorem keysApart_tables {elements : List Entries} :
    (tables elements).KeysApart ↔ ∀ entries ∈ elements, entries.KeysApart := by
  constructor
  · rintro (_ | _ | _ | _ | _ | _ | _ | _ | ⟨apart, each⟩)
    exact fun entries listed => ⟨apart entries listed, each entries listed⟩
  · intro laws
    exact .tables (fun entries listed => (laws entries listed).apart)
      fun entries listed => (laws entries listed).each

end Item

/-! ## Changes of a table -/

namespace Entries

variable {entries changed : Entries} {key : String} {item : Item}

theorem get?_eq_none_iff : entries.get? key = none ↔ ∀ entry ∈ entries, entry.1 ≠ key := by
  unfold get?
  rw [Option.map_eq_none_iff, List.find?_eq_none]
  simp only [decide_eq_true_eq, ne_eq]

theorem get?_cons (entry : String × Item) :
    get? (entry :: entries) key = if entry.1 = key then some entry.2 else entries.get? key := by
  unfold get?
  by_cases same : entry.1 = key
  · rw [List.find?_cons_of_pos (by simpa using same), if_pos same]
    rfl
  · rw [List.find?_cons_of_neg (by simpa using same), if_neg same]

theorem mem_of_get? (found : entries.get? key = some item) : (key, item) ∈ entries := by
  unfold get? at found
  obtain ⟨⟨name, _⟩, first, rfl⟩ := Option.map_eq_some_iff.mp found
  have same : name = key := by simpa using List.find?_some first
  rw [← same]
  exact List.mem_of_find?_eq_some first

namespace KeysApart

theorem empty : KeysApart [] := ⟨List.nodup_nil, List.forall_mem_nil _⟩

theorem item_of_get? (law : entries.KeysApart) (found : entries.get? key = some item) :
    item.KeysApart :=
  law.each _ (mem_of_get? found)

theorem append (law : entries.KeysApart) (fresh : entries.get? key = none)
    (itemLaw : item.KeysApart) : KeysApart (entries ++ [(key, item)]) where
  apart := by
    rw [List.map_append, List.nodup_append]
    refine ⟨law.apart, List.nodup_singleton _, ?_⟩
    rintro _ known other listed rfl
    obtain ⟨entry, before, same⟩ := List.mem_map.mp known
    exact get?_eq_none_iff.mp fresh entry before (same.trans (List.mem_singleton.mp listed))
  each := by
    intro entry listed
    rcases List.mem_append.mp listed with before | here
    · exact law.each entry before
    · obtain rfl := List.mem_singleton.mp here
      exact itemLaw

theorem replace (law : entries.KeysApart) (itemLaw : item.KeysApart) :
    (entries.replace key item).KeysApart where
  apart := by
    have names : (entries.replace key item).map Prod.fst = entries.map Prod.fst := by
      unfold Entries.replace
      rw [List.map_map]
      refine List.map_congr_left fun entry _ => ?_
      by_cases same : entry.1 = key <;> simp [same]
    rw [names]
    exact law.apart
  each := by
    intro entry listed
    obtain ⟨old, before, rfl⟩ := List.mem_map.mp listed
    split
    · exact itemLaw
    · exact law.each old before

/-- An entry may be taken out and put at the end. -/
theorem moveToEnd (law : entries.KeysApart) (itemLaw : item.KeysApart) :
    KeysApart (entries.remove key ++ [(key, item)]) := by
  have rest : (entries.remove key).KeysApart :=
    ⟨law.apart.sublist (List.filter_sublist.map Prod.fst), fun entry listed =>
      law.each entry (List.mem_filter.mp listed).1⟩
  refine rest.append (get?_eq_none_iff.mpr fun entry listed => ?_) itemLaw
  simpa using (List.mem_filter.mp listed).2

/-- A table may be exchanged for one that is made from it. -/
theorem replaceTable {origin origin' : Origin} {inner inner' : Entries} (law : entries.KeysApart)
    (found : entries.get? key = some (.table origin inner))
    (made : inner.KeysApart → inner'.KeysApart) :
    (entries.replace key (.table origin' inner')).KeysApart := by
  have innerLaw := Item.keysApart_table.mp (law.item_of_get? found)
  exact law.replace (Item.keysApart_table.mpr (made innerLaw))

/-- The last table of a list may be exchanged for one that is made from it. -/
theorem replaceLast {elements : List Entries} {last last' : Entries} (law : entries.KeysApart)
    (found : entries.get? key = some (.tables elements)) (listed : elements.getLast? = some last)
    (made : last.KeysApart → last'.KeysApart) :
    (entries.replace key (.tables (elements.dropLast ++ [last']))).KeysApart := by
  have laws := Item.keysApart_tables.mp (law.item_of_get? found)
  refine law.replace (Item.keysApart_tables.mpr fun element member => ?_)
  rcases List.mem_append.mp member with before | here
  · exact laws element (List.dropLast_subset elements before)
  · obtain rfl := List.mem_singleton.mp here
    exact made (laws last (List.mem_of_getLast? listed))

end KeysApart

theorem keysApart_of_add? (law : entries.KeysApart) (itemLaw : item.KeysApart)
    (added : entries.add? key item = some changed) : changed.KeysApart := by
  unfold add? at added
  split at added
  · cases added
  next fresh =>
    obtain rfl := Option.some.inj added
    exact law.append (Option.not_isSome_iff_eq_none.mp fresh) itemLaw

/-! ### Dotted keys -/

theorem keysApart_of_addInline? {path : List String} (law : entries.KeysApart)
    (itemLaw : item.KeysApart) (added : addInline? key item path entries = some changed) :
    changed.KeysApart := by
  induction path generalizing entries changed with
  | nil => exact keysApart_of_add? law itemLaw added
  | cons table path ih =>
    rw [addInline?] at added
    split at added
    next fresh =>
      obtain ⟨inner, made, added⟩ := Option.bind_eq_some_iff.mp added
      obtain rfl := Option.some.inj added
      exact law.append fresh (Item.keysApart_inlineTable.mpr (ih .empty made))
    next inner found =>
      obtain ⟨_, made, added⟩ := Option.bind_eq_some_iff.mp added
      obtain rfl := Option.some.inj added
      have innerLaw := Item.keysApart_inlineTable.mp (law.item_of_get? found)
      exact law.replace (Item.keysApart_inlineTable.mpr (ih innerLaw made))
    next => cases added

theorem keysApart_of_addDotted? {path : List String} (law : entries.KeysApart)
    (itemLaw : item.KeysApart) (added : addDotted? key item path entries = some changed) :
    changed.KeysApart := by
  induction path generalizing entries changed with
  | nil => exact keysApart_of_add? law itemLaw added
  | cons table path ih =>
    rw [addDotted?] at added
    split at added
    next fresh =>
      obtain ⟨inner, made, added⟩ := Option.bind_eq_some_iff.mp added
      obtain rfl := Option.some.inj added
      exact law.append fresh (Item.keysApart_table.mpr (ih .empty made))
    next inner found =>
      obtain ⟨_, made, added⟩ := Option.bind_eq_some_iff.mp added
      obtain rfl := Option.some.inj added
      exact law.replaceTable found fun innerLaw => ih innerLaw made
    next inner found =>
      obtain ⟨-, -, added⟩ := Option.bind_eq_some_iff.mp added
      obtain ⟨_, made, added⟩ := Option.bind_eq_some_iff.mp added
      obtain rfl := Option.some.inj added
      exact law.replaceTable found fun innerLaw => ih innerLaw made
    next elements found =>
      obtain ⟨-, -, added⟩ := Option.bind_eq_some_iff.mp added
      obtain ⟨last, listed, added⟩ := Option.bind_eq_some_iff.mp added
      obtain ⟨_, made, added⟩ := Option.bind_eq_some_iff.mp added
      obtain rfl := Option.some.inj added
      exact law.replaceLast found listed fun lastLaw => ih lastLaw made
    next => cases added

/-! ### Headers -/

/-- A change of a table that keeps keys apart. -/
def KeepsApart (change : Entries → Option Entries) : Prop :=
  ∀ {entries changed : Entries}, entries.KeysApart → change entries = some changed →
    changed.KeysApart

theorem keepsApart_within? {change : Entries → Option Entries} (keeps : KeepsApart change)
    (path : List String) : KeepsApart (within? change path) := by
  induction path with
  | nil => exact keeps
  | cons table path ih =>
    intro entries changed law done
    rw [within?] at done
    split at done
    next fresh =>
      obtain ⟨inner, made, done⟩ := Option.bind_eq_some_iff.mp done
      obtain rfl := Option.some.inj done
      exact law.append fresh (Item.keysApart_table.mpr (ih .empty made))
    next origin inner found =>
      obtain ⟨_, made, done⟩ := Option.bind_eq_some_iff.mp done
      obtain rfl := Option.some.inj done
      exact law.replaceTable found fun innerLaw => ih innerLaw made
    next elements found =>
      obtain ⟨last, listed, done⟩ := Option.bind_eq_some_iff.mp done
      obtain ⟨_, made, done⟩ := Option.bind_eq_some_iff.mp done
      obtain rfl := Option.some.inj done
      exact law.replaceLast found listed fun lastLaw => ih lastLaw made
    next => cases done

theorem keepsApart_openTable? (key : String) : KeepsApart (openTable? key) := by
  intro entries changed law opened
  unfold openTable? at opened
  split at opened
  next fresh =>
    obtain rfl := Option.some.inj opened
    exact law.append fresh (Item.keysApart_table.mpr .empty)
  next inner found =>
    obtain rfl := Option.some.inj opened
    have innerLaw := Item.keysApart_table.mp (law.item_of_get? found)
    exact law.moveToEnd (Item.keysApart_table.mpr innerLaw)
  next => cases opened

theorem keepsApart_appendTable? (key : String) : KeepsApart (appendTable? key) := by
  intro entries changed law opened
  unfold appendTable? at opened
  split at opened
  next fresh =>
    obtain rfl := Option.some.inj opened
    refine law.append fresh (Item.keysApart_tables.mpr fun element listed => ?_)
    obtain rfl := List.mem_singleton.mp listed
    exact .empty
  next elements found =>
    obtain rfl := Option.some.inj opened
    refine law.replace (Item.keysApart_tables.mpr fun element listed => ?_)
    rcases List.mem_append.mp listed with before | here
    · exact Item.keysApart_tables.mp (law.item_of_get? found) element before
    · obtain rfl := List.mem_singleton.mp here
      exact .empty
  next => cases opened

/-! ### Whole tables -/

theorem keysApart_of_foldlM_addInline? {pairs : List (KeyPath × Item)} (law : entries.KeysApart)
    (laws : ∀ pair ∈ pairs, pair.2.KeysApart)
    (made : pairs.foldlM (fun entries (path, item) => addInline? path.key item path.tables entries)
      entries = some changed) : changed.KeysApart := by
  induction pairs generalizing entries with
  | nil =>
    obtain rfl := Option.some.inj made
    exact law
  | cons pair pairs ih =>
    obtain ⟨first, others⟩ := List.forall_mem_cons.mp laws
    rw [List.foldlM_cons] at made
    obtain ⟨between, added, made⟩ := Option.bind_eq_some_iff.mp made
    exact ih (keysApart_of_addInline? law first added) others made

theorem keysApart_of_ofPairs? {pairs : List (KeyPath × Item)}
    (laws : ∀ pair ∈ pairs, pair.2.KeysApart) (made : ofPairs? pairs = some entries) :
    entries.KeysApart :=
  keysApart_of_foldlM_addInline? .empty laws made

end Entries

/-- The item of a statement, if it has one, keeps keys apart. -/
def Statement.KeysApart : Statement → Prop
  | .pair _ item => item.KeysApart
  | _ => True

theorem Assembly.keysApart_of_take? {assembly assembly' : Assembly} {statement : Statement}
    (law : assembly.root.KeysApart) (statementLaw : statement.KeysApart)
    (taken : assembly.take? statement = some assembly') : assembly'.root.KeysApart := by
  cases statement with
  | blank =>
    obtain rfl := Option.some.inj taken
    exact law
  | header path =>
    obtain ⟨root, opened, taken⟩ := Option.bind_eq_some_iff.mp taken
    obtain rfl := Option.some.inj taken
    exact Entries.keepsApart_within? (Entries.keepsApart_openTable? path.key) path.tables law opened
  | listHeader path =>
    obtain ⟨root, opened, taken⟩ := Option.bind_eq_some_iff.mp taken
    obtain rfl := Option.some.inj taken
    exact Entries.keepsApart_within? (Entries.keepsApart_appendTable? path.key) path.tables law
      opened
  | pair path item =>
    obtain ⟨root, added, taken⟩ := Option.bind_eq_some_iff.mp taken
    obtain rfl := Option.some.inj taken
    have keeps : Entries.KeepsApart (Entries.addDotted? path.key item path.tables) :=
      fun tableLaw made => Entries.keysApart_of_addDotted? tableLaw statementLaw made
    exact Entries.keepsApart_within? keeps assembly.current law added

theorem Assembly.keysApart_of_foldlM_take? {assembly assembly' : Assembly}
    {statements : List Statement} (law : assembly.root.KeysApart)
    (laws : ∀ statement ∈ statements, statement.KeysApart)
    (taken : statements.foldlM take? assembly = some assembly') : assembly'.root.KeysApart := by
  induction statements generalizing assembly with
  | nil =>
    obtain rfl := Option.some.inj taken
    exact law
  | cons statement statements ih =>
    obtain ⟨first, others⟩ := List.forall_mem_cons.mp laws
    rw [List.foldlM_cons] at taken
    obtain ⟨between, step, taken⟩ := Option.bind_eq_some_iff.mp taken
    exact ih (keysApart_of_take? law first step) others taken

theorem Entries.keysApart_of_ofStatements? {statements : List Statement} {entries : Entries}
    (laws : ∀ statement ∈ statements, statement.KeysApart)
    (made : ofStatements? statements = some entries) : entries.KeysApart := by
  obtain ⟨assembly, taken, rfl⟩ := Option.map_eq_some_iff.mp made
  exact Assembly.keysApart_of_foldlM_take? .empty laws taken

/-! ## Values in a text -/

/-- What a reader finds keeps keys apart. -/
def FindsApart (read : ItemReader) : Prop :=
  ∀ {text : List Char} {found : Item × List Char}, read text = some found → found.1.KeysApart

namespace Scalar

theorem keysApart_of_integer? {value : Int} {item : Item} (made : integer? value = some item) :
    item.KeysApart := by
  unfold integer? at made
  split at made
  · obtain rfl := Option.some.inj made
    exact .integer value
  · cases made

theorem keysApart_of_real? {negative : Bool} {magnitude : Float} {item : Item}
    (made : real? negative magnitude = some item) : item.KeysApart := by
  unfold real? at made
  split at made
  · obtain rfl := Option.some.inj made
    exact .real _
  · split at made
    · cases made
    · obtain rfl := Option.some.inj made
      exact .real _

theorem findsApart_based? (base : Nat) (isDigit : Char → Bool) :
    FindsApart (based? base isDigit) := by
  intro text found read
  obtain ⟨_, -, read⟩ := Option.bind_eq_some_iff.mp read
  obtain ⟨item, made, read⟩ := Option.bind_eq_some_iff.mp read
  obtain rfl := Option.some.inj read
  exact keysApart_of_integer? made

theorem findsApart_decimal? (negative : Bool) : FindsApart (decimal? negative) := by
  intro text found read
  obtain ⟨_, -, read⟩ := Option.bind_eq_some_iff.mp read
  obtain ⟨_, -, read⟩ := Option.bind_eq_some_iff.mp read
  obtain ⟨_, -, read⟩ := Option.bind_eq_some_iff.mp read
  dsimp only at read
  split at read
  · obtain ⟨item, made, read⟩ := Option.bind_eq_some_iff.mp read
    obtain rfl := Option.some.inj read
    exact keysApart_of_integer? made
  · obtain ⟨item, made, read⟩ := Option.bind_eq_some_iff.mp read
    obtain rfl := Option.some.inj read
    exact keysApart_of_real? made

theorem findsApart_number? : FindsApart number? := by
  intro text found read
  unfold number? at read
  split at read
  · exact findsApart_based? 16 isHex read
  · exact findsApart_based? 8 isOctal read
  · exact findsApart_based? 2 isBinary read
  · split at read
    · obtain rfl := Option.some.inj read
      exact .real _
    · obtain rfl := Option.some.inj read
      exact .real _
    · obtain rfl := Option.some.inj read
      exact .real _
    · exact findsApart_decimal? _ read

theorem findsApart_dateTime? : FindsApart dateTime? := by
  intro text found read
  obtain ⟨_, -, rfl⟩ := Option.map_eq_some_iff.mp read
  exact .dateTime

theorem findsApart_read? : FindsApart read? := by
  intro text found read
  unfold read? at read
  split at read
  · obtain rfl := Option.some.inj read
    exact .boolean true
  · obtain rfl := Option.some.inj read
    exact .boolean false
  · split at read
    · exact findsApart_dateTime? read
    · exact findsApart_number? read

end Scalar

section

variable {read : ItemReader} (law : FindsApart read)
include law

theorem keysApart_of_items? {fuel : Nat} {text : List Char} {found : List Item × List Char}
    (done : items? read fuel text = some found) : ∀ item ∈ found.1, item.KeysApart := by
  induction fuel generalizing text found with
  | zero => cases done
  | succ fuel ih =>
    rw [items?] at done
    split at done
    · obtain rfl := Option.some.inj done
      exact List.forall_mem_nil _
    · obtain ⟨⟨item, rest⟩, first, done⟩ := Option.bind_eq_some_iff.mp done
      dsimp only at done
      split at done
      · obtain ⟨_, others, done⟩ := Option.bind_eq_some_iff.mp done
        obtain rfl := Option.some.inj done
        exact List.forall_mem_cons.mpr ⟨law first, ih others⟩
      · obtain rfl := Option.some.inj done
        exact List.forall_mem_cons.mpr ⟨law first, List.forall_mem_nil _⟩
      · cases done

theorem keysApart_of_pair? {text : List Char} {found : (KeyPath × Item) × List Char}
    (done : pair? read text = some found) : found.1.2.KeysApart := by
  obtain ⟨_, -, done⟩ := Option.bind_eq_some_iff.mp done
  obtain ⟨_, -, done⟩ := Option.bind_eq_some_iff.mp done
  obtain ⟨_, first, done⟩ := Option.bind_eq_some_iff.mp done
  obtain rfl := Option.some.inj done
  exact law first

theorem keysApart_of_pairs? {fuel : Nat} {text : List Char}
    {found : List (KeyPath × Item) × List Char} (done : pairs? read fuel text = some found) :
    ∀ pair ∈ found.1, pair.2.KeysApart := by
  induction fuel generalizing text found with
  | zero => cases done
  | succ fuel ih =>
    rw [pairs?] at done
    obtain ⟨⟨pair, rest⟩, first, done⟩ := Option.bind_eq_some_iff.mp done
    have pairLaw := keysApart_of_pair? law first
    dsimp only at done
    split at done
    · obtain ⟨_, others, done⟩ := Option.bind_eq_some_iff.mp done
      obtain rfl := Option.some.inj done
      exact List.forall_mem_cons.mpr ⟨pairLaw, ih others⟩
    · obtain rfl := Option.some.inj done
      exact List.forall_mem_cons.mpr ⟨pairLaw, List.forall_mem_nil _⟩
    · cases done

theorem findsApart_inlineTable? : FindsApart (inlineTable? read) := by
  intro text found done
  unfold inlineTable? at done
  split at done
  · obtain rfl := Option.some.inj done
    exact Item.keysApart_inlineTable.mpr .empty
  · obtain ⟨_, listed, done⟩ := Option.bind_eq_some_iff.mp done
    obtain ⟨entries, made, done⟩ := Option.bind_eq_some_iff.mp done
    obtain rfl := Option.some.inj done
    have laws := keysApart_of_pairs? law listed
    exact Item.keysApart_inlineTable.mpr (Entries.keysApart_of_ofPairs? laws made)

end

theorem findsApart_leaf? : FindsApart item?.leaf? := by
  have string : FindsApart item?.string? := by
    intro text found read
    obtain ⟨_, -, rfl⟩ := Option.map_eq_some_iff.mp read
    exact .text _
  intro text found read
  unfold item?.leaf? at read
  split at read
  · exact string read
  · exact string read
  · exact Scalar.findsApart_read? read

theorem findsApart_item? (room : Nat) : FindsApart (item? room) := by
  induction room with
  | zero =>
    intro text found read
    unfold item? at read
    split at read
    · cases read
    · cases read
    · exact findsApart_leaf? read
  | succ room ih =>
    intro text found read
    unfold item? at read
    split at read
    · obtain ⟨_, listed, rfl⟩ := Option.map_eq_some_iff.mp read
      exact .array (keysApart_of_items? ih listed)
    · exact findsApart_inlineTable? ih read
    · exact findsApart_leaf? read

/-! ## Documents -/

theorem keysApart_of_header? {text : List Char} {found : Statement × List Char}
    (read : header? text = some found) : found.1.KeysApart := by
  unfold header? at read
  split at read
  · obtain ⟨_, -, read⟩ := Option.bind_eq_some_iff.mp read
    obtain ⟨_, -, read⟩ := Option.bind_eq_some_iff.mp read
    obtain ⟨_, -, read⟩ := Option.bind_eq_some_iff.mp read
    obtain rfl := Option.some.inj read
    trivial
  · obtain ⟨_, -, read⟩ := Option.bind_eq_some_iff.mp read
    obtain ⟨_, -, read⟩ := Option.bind_eq_some_iff.mp read
    obtain rfl := Option.some.inj read
    trivial

theorem keysApart_of_statement? {text : List Char} {found : Statement × List Char}
    (read : statement? text = some found) : found.1.KeysApart := by
  unfold statement? at read
  split at read
  · exact keysApart_of_header? read
  · split at read
    · obtain rfl := Option.some.inj read
      trivial
    · obtain ⟨_, pair, rfl⟩ := Option.map_eq_some_iff.mp read
      exact keysApart_of_pair? (findsApart_item? deepest) pair

theorem keysApart_of_statements? {fuel : Nat} {text : List Char} {statements : List Statement}
    (read : statements? fuel text = some statements) :
    ∀ statement ∈ statements, statement.KeysApart := by
  induction fuel generalizing text statements with
  | zero =>
    cases text with
    | nil =>
      obtain rfl := Option.some.inj read
      exact List.forall_mem_nil _
    | cons c rest => cases read
  | succ fuel ih =>
    cases text with
    | nil =>
      obtain rfl := Option.some.inj read
      exact List.forall_mem_nil _
    | cons c rest =>
      obtain ⟨_, first, read⟩ := Option.bind_eq_some_iff.mp read
      obtain ⟨_, -, read⟩ := Option.bind_eq_some_iff.mp read
      obtain ⟨_, others, read⟩ := Option.bind_eq_some_iff.mp read
      obtain rfl := Option.some.inj read
      exact List.forall_mem_cons.mpr ⟨keysApart_of_statement? first, ih others⟩

/-- No table of a document has two entries for one key. -/
theorem keysApart_of_read? {text : String} {entries : Entries}
    (read : read? text = some entries) : entries.KeysApart := by
  obtain ⟨statements, found, made⟩ := Option.bind_eq_some_iff.mp read
  exact Entries.keysApart_of_ofStatements? (keysApart_of_statements? found) made

end DeclarationDocs.Toml
