import Mathlib.Data.List.Forall2
import DeclarationDocs.Proofs.Render.Footprint
import DeclarationDocs.Proofs.Render.Reports
import DeclarationDocs.Proofs.Store.LastWrites

/-!
# Where links come from

Nothing is ever taken out of a store, and the index follows the insertions and the registrations.
So whatever the history of a store, an identifier that resolves leads to a stored node or to a
reference that was registered for that very identifier. A section that is rendered from the store
has no other links, and its sibling rows name stored symbols with declarations.

Main statement: `Context.section?_anchored`.
-/

namespace DeclarationDocs

namespace Store

/-! ## Anchored links -/

/-- Where a fragment may link after a history. -/
inductive Anchored (history : List Operation) (fragment : Fragment) (reference : Reference) :
    Prop where
  | stored {node : Node} (stands : (afterHistory history).node? reference = some node)
  | registered {preciseIdentifier : String}
      (named : fragment.preciseIdentifier = some preciseIdentifier)
      (listed : .register preciseIdentifier reference ∈ history)

/-- The token shows the fragment, and if it links, the fragment may link there. -/
structure AnchoredToken (history : List Operation) (fragment : Fragment) (token : LinkedToken) :
    Prop where
  kind_eq : token.kind = fragment.kind
  text_eq : token.text = fragment.spelling
  anchored : ∀ reference, token.identifier = some reference → Anchored history fragment reference

/-- The row names a listed symbol that is stored with declarations for the trait, and its tokens
show the first of these. -/
structure AnchoredRow (history : List Operation) (symbol : Symbol) (trait : Trait)
    (row : SiblingRow) : Prop where
  listed : symbol.Lists trait row.identifier
  shown : ∃ sibling pair rest, (afterHistory history).symbol? row.identifier = some sibling
    ∧ sibling.declarations trait = pair :: rest
    ∧ List.Forall₂ (AnchoredToken history) pair.declaration.fragments row.tokens

/-- The entry shows the declaration for the trait, and so do the rows of its block. -/
structure AnchoredEntry (history : List Operation) (symbol : Symbol)
    (source : Trait × PlatformDeclaration) (entry : Entry) : Prop where
  tokens : List.Forall₂ (AnchoredToken history) source.2.declaration.fragments entry.tokens
  rows : ∀ block, entry.siblings = some block →
    ∀ row ∈ block.rows, AnchoredRow history symbol source.1 row

/-- What was ever inserted under a reference, something stands there. -/
theorem exists_node?_of_mem {history : List Operation} {node : Node}
    (inserts : Operation.insert node ∈ history) :
    ∃ standing, (afterHistory history).node? node.reference = some standing := by
  have listed : node ∈ inserted history := List.mem_filterMap.mpr ⟨_, inserts, rfl⟩
  have standing := (mem_references_afterHistory history node.reference).mpr
    (List.mem_map_of_mem listed)
  exact Option.isSome_iff_exists.mp (Catalog.mem_keys_iff.mp standing)

/-- An identifier that resolves was brought in by an insertion or by a registration. -/
theorem anchored_of_resolve? {history : List Operation} {fragment : Fragment}
    {preciseIdentifier : String} {reference : Reference}
    (named : fragment.preciseIdentifier = some preciseIdentifier)
    (resolved : (afterHistory history).resolve? preciseIdentifier = some reference) :
    Anchored history fragment reference := by
  rw [resolve?_afterHistory] at resolved
  obtain ⟨operation, member, target⟩ := List.mem_filterMap.mp (List.mem_of_getLast? resolved)
  unfold Operation.target? at target
  split at target
  case h_1 symbol =>
    split at target
    · obtain rfl := Option.some.inj target
      obtain ⟨standing, stands⟩ := exists_node?_of_mem member
      exact .stored stands
    · cases target
  case h_2 => cases target
  case h_3 given registered =>
    split at target
    next same =>
      obtain rfl := Option.some.inj target
      exact .registered named (same ▸ member)
    next => cases target

end Store

namespace Context

open Store

/-! ## The fragments behind the reports -/

theorem exists_of_mem_reports_fragments {context : Context} {fragments : List Fragment}
    {reference : Reference}
    (reported : reference ∈ Trace.reports (fragments.flatMap context.fragmentTrace)) :
    ∃ fragment ∈ fragments, context.target? fragment = some reference := by
  rw [Trace.reports_flatMap] at reported
  obtain ⟨fragment, inside, linked⟩ := List.mem_flatMap.mp reported
  rw [reports_fragmentTrace, Option.mem_toList] at linked
  exact ⟨fragment, inside, linked⟩

/-- A listed symbol reports where the fragments of its declaration for the trait link. -/
theorem exists_of_mem_reports_rowTrace {context : Context} {trait : Trait}
    {listed reference : Reference}
    (reported : reference ∈ Trace.reports (context.rowTrace trait listed)) :
    ∃ declaration, context.siblingDeclaration? trait listed = some declaration
      ∧ ∃ fragment ∈ declaration.fragments, context.target? fragment = some reference := by
  rw [reports_rowTrace, shownRow?] at reported
  cases first : context.siblingDeclaration? trait listed with
  | none =>
    rw [first] at reported
    cases reported
  | some declaration =>
    rw [first, Option.map_some, Option.toList_some, List.flatMap_singleton,
      ← reports_fragments] at reported
    exact ⟨declaration, rfl, exists_of_mem_reports_fragments reported⟩

/-- Each report is where a shown fragment links. -/
theorem exists_shows_of_mem_reports {context : Context} (quiet : context.IsQuiet) {symbol : Symbol}
    {reference : Reference} (reported : reference ∈ (context.section? symbol).reports) :
    ∃ fragment, context.Shows symbol fragment ∧ context.target? fragment = some reference := by
  rw [reports_section?_eq, traitSections_eq quiet, Run.reports, traitsTrace,
    Trace.reports_flatMap] at reported
  obtain ⟨trait, -, reported⟩ := List.mem_flatMap.mp reported
  unfold traitTrace at reported
  split at reported
  next => cases reported
  next declared =>
    rw [Trace.reports_append, Trace.reports_flatMap] at reported
    rcases List.mem_append.mp reported with own | shared
    · obtain ⟨pair, member, own⟩ := List.mem_flatMap.mp own
      obtain ⟨fragment, inside, target⟩ := exists_of_mem_reports_fragments own
      exact ⟨fragment, .own member inside, target⟩
    · -- the block is rendered for a group, and only since the trait has declarations
      cases overloaded : symbol.overloads? trait with
      | none =>
        rw [overloaded] at shared
        cases shared
      | some group =>
        rw [overloaded, blockTrace, Trace.reports_flatMap] at shared
        obtain ⟨listed, member, shared⟩ := List.mem_flatMap.mp shared
        obtain ⟨declaration, first, fragment, inside, target⟩ :=
          exists_of_mem_reports_rowTrace shared
        have listing : symbol.Lists trait listed :=
          ⟨by simpa using declared, group, overloaded, member⟩
        exact ⟨fragment, .sibling listing first inside, target⟩

/-! ## Sections of a store with a history -/

section History

variable {history : List Operation} {entities : Store} {config : Config}

theorem anchored_of_target? {fragment : Fragment} {reference : Reference}
    (target : (ofStores (afterHistory history) entities config).target? fragment = some reference) :
    Anchored history fragment reference := by
  obtain ⟨preciseIdentifier, named, resolved⟩ := Option.bind_eq_some_iff.mp target
  exact anchored_of_resolve? named resolved

theorem anchoredTokens (fragments : List Fragment) :
    List.Forall₂ (AnchoredToken history) fragments
      (fragments.map (ofStores (afterHistory history) entities config).shownFragment) := by
  refine List.forall₂_map_right_iff.mpr (List.forall₂_same.mpr fun fragment _ => ?_)
  exact ⟨rfl, rfl, fun reference target => anchored_of_target? target⟩

theorem anchoredRow_of_mem {symbol : Symbol} {trait : Trait} {group : OverloadGroup}
    {row : SiblingRow} (declared : symbol.declarations trait ≠ [])
    (overloaded : symbol.overloads? trait = some group)
    (member : row ∈ ((ofStores (afterHistory history) (afterHistory history) config).shownBlock
      trait group).rows) : AnchoredRow history symbol trait row := by
  obtain ⟨reference, listed, found⟩ := List.mem_filterMap.mp member
  obtain ⟨declaration, first, rfl⟩ := Option.map_eq_some_iff.mp found
  rw [siblingDeclaration?_ofStores] at first
  obtain ⟨sibling, stored, first⟩ := Option.bind_eq_some_iff.mp first
  obtain ⟨pair, head, rfl⟩ := Option.map_eq_some_iff.mp first
  obtain ⟨rest, pairs⟩ := List.head?_eq_some_iff.mp head
  exact
    { listed := ⟨declared, group, overloaded, listed⟩
      shown := ⟨sibling, pair, rest, stored, pairs, anchoredTokens pair.declaration.fragments⟩ }

theorem anchoredEntry {symbol : Symbol} {trait : Trait} {pair : PlatformDeclaration}
    (declared : symbol.declarations trait ≠ []) :
    AnchoredEntry history symbol (trait, pair)
      ((ofStores (afterHistory history) (afterHistory history) config).shownEntry symbol trait
        pair) where
  tokens := anchoredTokens pair.declaration.fragments
  rows := by
    intro block shared row member
    obtain ⟨group, overloaded, rfl⟩ := Option.map_eq_some_iff.mp shared
    exact anchoredRow_of_mem declared overloaded member

end History

/-- In a store with any history, a quiet rendering of any symbol links nowhere but to stored nodes
and to references registered for the identifier of the linking fragment, and it reports nothing
else. Every sibling row names a listed symbol that is stored with declarations for the trait. -/
theorem section?_anchored (history : List Operation) {config : Config}
    (quiet : config.missingOverloadFragments ≠ .assert) (symbol : Symbol) :
    let store := afterHistory history
    let context := ofStores store store config
    ∃ contents?, (context.section? symbol).outcome = .ok contents?
      ∧ contents?.isSome = symbol.hasDeclarations
      ∧ (∀ contents, contents? = some contents →
        List.Forall₂ (AnchoredEntry history symbol) symbol.declared contents.entries)
      ∧ ∀ reference ∈ (context.section? symbol).reports, ∃ fragment,
        context.Shows symbol fragment ∧ context.target? fragment = some reference
          ∧ Anchored history fragment reference := by
  intro store context
  have quiet : context.IsQuiet := quiet
  refine ⟨context.shownSection? symbol, by rw [section?_eq quiet], ?_, fun contents shown => ?_,
    fun reference reported => ?_⟩
  · unfold shownSection?
    split
    next present => exact present.symm
    next absent => simpa using absent
  · unfold shownSection? at shown
    split at shown
    next =>
      obtain rfl := Option.some.inj shown
      rw [entries_eq_map_declared]
      refine List.forall₂_map_right_iff.mpr (List.forall₂_same.mpr fun source member => ?_)
      exact anchoredEntry (List.ne_nil_of_mem (Symbol.mem_declarations_of_mem_declared member))
    next => cases shown
  · obtain ⟨fragment, shows, target⟩ := exists_shows_of_mem_reports quiet reported
    exact ⟨fragment, shows, target, anchored_of_target? target⟩

/-- The function and the bare symbol are inserted, and one identifier is registered on the way. -/
def shelving : List Operation :=
  [.insert (.symbol swap), .register "s:Si" ⟨"doc://Swift/Int"⟩,
    .insert (.symbol (.bare ⟨"doc://Kit/bare"⟩ .swift))]

/-- The links of the function are anchored, and so is the one reference that it reports. -/
theorem section?_swap_anchored :
    let store := afterHistory shelving
    let context := ofStores store store .standard
    Config.standard.missingOverloadFragments ≠ .assert
      ∧ ∃ contents, (context.section? swap).outcome = .ok (some contents)
        ∧ List.Forall₂ (AnchoredEntry shelving swap) swap.declared contents.entries
        ∧ ∃ fragment, context.Shows swap fragment
          ∧ context.target? fragment = some ⟨"doc://Swift/Int"⟩
          ∧ Anchored shelving fragment ⟨"doc://Swift/Int"⟩ := by
  intro store context
  have quiet : Config.standard.missingOverloadFragments ≠ .assert := by decide
  obtain ⟨contents?, rendered, present, entries, links⟩ := section?_anchored shelving quiet swap
  obtain ⟨contents, rfl⟩ := Option.isSome_iff_exists.mp (present.trans (by decide))
  exact ⟨quiet, contents, rendered, entries contents rfl, links ⟨"doc://Swift/Int"⟩ (by decide)⟩

end Context

end DeclarationDocs
