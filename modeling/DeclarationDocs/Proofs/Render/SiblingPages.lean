import Mathlib.Data.List.Nodup
import DeclarationDocs.Proofs.Catalog
import DeclarationDocs.Proofs.Render.Layout

/-!
# Sibling rows and the siblings' own pages

A sibling block shows of each member what the member's own page shows first. The block finds the
declaration by itself, and the page is put together trait by trait; the two agree because a store
keeps every node under its own reference and a trait's first entry is that of its first declaration.

Main statement: `Context.rows_agree_with_own_sections`.
-/

namespace DeclarationDocs.Context

/-- Entities are looked up in a store. -/
def LooksUpIn (context : Context) (entities : Store) : Prop := context.entity = entities.entity

/-- The sections for one trait among those that a symbol has when it is rendered trait by trait. -/
def sectionsFor (context : Context) (symbol : Symbol) (trait : Trait) :
    Except Fault (List TraitSection) :=
  (context.traitSections symbol).outcome.map fun sections =>
    sections.filter fun shown => shown.trait = trait

/-- The rows of listed members as their own pages give them. A member that is a stored symbol with
a section for the trait has a row with the tokens of the section's first entry; the others have
none. -/
inductive OwnRows (context : Context) (entities : Store) (trait : Trait) :
    List Reference → List SiblingRow → Prop where
  | nil : OwnRows context entities trait [] []
  | shown {reference : Reference} {references : List Reference} {rows : List SiblingRow}
      {sibling : Symbol} {own : TraitSection} {first : Entry}
      (stored : entities.symbol? reference = some sibling)
      (section_eq : context.sectionsFor sibling trait = .ok [own])
      (first_eq : own.contents.entries.head? = some first)
      (rest : OwnRows context entities trait references rows) :
      OwnRows context entities trait (reference :: references)
        (⟨sibling.reference, first.tokens⟩ :: rows)
  | passedOver {reference : Reference} {references : List Reference} {rows : List SiblingRow}
      (missing : ∀ sibling, entities.symbol? reference = some sibling →
        context.sectionsFor sibling trait = .ok [])
      (rest : OwnRows context entities trait references rows) :
      OwnRows context entities trait (reference :: references) rows

/-! ## The section of a symbol for one trait -/

theorem trait_of_shownTrait? {context : Context} {symbol : Symbol} {trait : Trait}
    {own : TraitSection} (shown : context.shownTrait? symbol trait = some own) :
    own.trait = trait := by
  unfold shownTrait? at shown
  split at shown
  · cases shown
  · obtain rfl := Option.some.inj shown
    rfl

/-- A trait with declarations is among the traits of its symbol. -/
theorem mem_traits_of_declarations {symbol : Symbol} {trait : Trait}
    (declared : symbol.declarations trait ≠ []) : trait ∈ symbol.traits := by
  unfold Symbol.traits
  rw [Catalog.mem_keys_iff]
  by_contra missing
  refine declared ?_
  unfold Symbol.declarations TraitMap.get?
  rw [Option.not_isSome_iff_eq_none.mp missing]
  rfl

theorem shownTrait?_eq_none_of_not_mem {context : Context} {symbol : Symbol} {trait : Trait}
    (unlisted : trait ∉ symbol.traits) : context.shownTrait? symbol trait = none := by
  have undeclared : symbol.declarations trait = [] := by
    by_contra declared
    exact unlisted (mem_traits_of_declarations declared)
  rw [shownTrait?, undeclared]
  rfl

/-- A symbol has at most one section for a trait, since its traits are distinct. -/
theorem filter_shownTraits (context : Context) (symbol : Symbol) (trait : Trait) :
    (context.shownTraits symbol).filter (fun shown => shown.trait = trait)
      = (context.shownTrait? symbol trait).toList := by
  have kept : ∀ other, (context.shownTrait? symbol other).filter (fun own => own.trait = trait)
      = if decide (other = trait) = true then context.shownTrait? symbol other else none := by
    intro other
    cases shown : context.shownTrait? symbol other with
    | none => simp
    | some own => rw [Option.filter_some, trait_of_shownTrait? shown]
  have distinct : symbol.traits.Nodup := Catalog.nodup_keys symbol.declarationVariants
  calc (context.shownTraits symbol).filter (fun shown => shown.trait = trait)
      = (symbol.traits.filter (· = trait)).filterMap (context.shownTrait? symbol) := by
        rw [shownTraits, List.filter_filterMap, List.filterMap_filter, funext kept]
    _ = (List.replicate (if trait ∈ symbol.traits then 1 else 0) trait).filterMap
          (context.shownTrait? symbol) := by
        rw [List.filter_eq, distinct.count]
    _ = (context.shownTrait? symbol trait).toList := by
        split
        next => cases shown : context.shownTrait? symbol trait <;> simp [shown]
        next unlisted => rw [shownTrait?_eq_none_of_not_mem unlisted]; rfl

theorem sectionsFor_eq {context : Context} (quiet : context.IsQuiet) (symbol : Symbol)
    (trait : Trait) :
    context.sectionsFor symbol trait = .ok (context.shownTrait? symbol trait).toList := by
  unfold sectionsFor
  rw [traitSections_eq quiet]
  exact congrArg Except.ok (filter_shownTraits context symbol trait)

/-- A section has a first entry. -/
theorem exists_first_of_shownTrait? {context : Context} {symbol : Symbol} {trait : Trait}
    {own : TraitSection} (shown : context.shownTrait? symbol trait = some own) :
    ∃ first, own.contents.entries.head? = some first := by
  unfold shownTrait? at shown
  cases declared : symbol.declarations trait with
  | nil => rw [declared] at shown; cases shown
  | cons pair rest =>
    rw [declared] at shown
    obtain rfl := Option.some.inj shown
    exact ⟨_, rfl⟩

/-! ## Rows and first entries -/

/-- The row of a stored symbol is the first entry of its section for the trait. -/
theorem shownRow?_eq_first {context : Context} {entities : Store}
    (served : context.LooksUpIn entities) (trait : Trait) (reference : Reference) :
    context.shownRow? trait reference
      = (entities.symbol? reference).bind fun sibling =>
          (context.shownTrait? sibling trait).bind fun own =>
            own.contents.entries.head?.map fun first => ⟨sibling.reference, first.tokens⟩ := by
  unfold LooksUpIn at served
  unfold shownRow? siblingDeclaration? Store.symbol?
  rw [served, Store.entity]
  cases found : entities.node? reference with
  | none => rfl
  | some node =>
    cases node with
    | article page => rfl
    | symbol sibling =>
      -- the row is headed by the listed reference, the page by the symbol's own
      have same : sibling.reference = reference := Store.reference_of_node? found
      dsimp only [Option.bind_some, Node.symbol?]
      unfold shownTrait? Symbol.firstDeclaration?
      cases sibling.declarations trait with
      | nil => rfl
      | cons pair rest =>
        rw [same]
        rfl

/-- The rows of a block are those that the members' own pages give. -/
theorem ownRows_filterMap {context : Context} (quiet : context.IsQuiet) {entities : Store}
    (served : context.LooksUpIn entities) (trait : Trait) (references : List Reference) :
    context.OwnRows entities trait references
      (references.filterMap (context.shownRow? trait)) := by
  induction references with
  | nil => exact .nil
  | cons reference references ih =>
    have row := shownRow?_eq_first served trait reference
    cases stored : entities.symbol? reference with
    | none =>
      rw [stored] at row
      rw [List.filterMap_cons_none row]
      exact .passedOver (fun sibling found => nomatch stored.symm.trans found) ih
    | some sibling =>
      rw [stored, Option.bind_some] at row
      have sections := sectionsFor_eq quiet sibling trait
      cases shown : context.shownTrait? sibling trait with
      | none =>
        rw [shown] at row sections
        rw [List.filterMap_cons_none row]
        refine .passedOver (fun other found => ?_) ih
        obtain rfl := Option.some.inj (stored.symm.trans found)
        exact sections
      | some own =>
        obtain ⟨first, heads⟩ := exists_first_of_shownTrait? shown
        rw [shown] at row sections
        rw [Option.bind_some, heads] at row
        rw [List.filterMap_cons_some row]
        exact .shown stored sections heads ih

theorem identifier_of_shownRow? {context : Context} {trait : Trait} {reference : Reference}
    {row : SiblingRow} (shown : context.shownRow? trait reference = some row) :
    row.identifier = reference := by
  obtain ⟨declaration, -, rfl⟩ := Option.map_eq_some_iff.mp shown
  rfl

/-- Where entities are looked up in a store, the block of a trait has in each entry of the trait the
rows that the listed members' own pages give: one for each listing of a stored symbol with a section
for the trait, under the symbol's reference and with the tokens of that section's first entry. A
stored symbol that is listed in its own group shows there what it shows first. -/
theorem rows_agree_with_own_sections {context : Context} (quiet : context.IsQuiet)
    {entities : Store} (served : context.LooksUpIn entities) {symbol : Symbol} {trait : Trait}
    {group : OverloadGroup} (declared : symbol.declarations trait ≠ [])
    (overloaded : symbol.overloads? trait = some group) :
    ∃ own first, context.sectionsFor symbol trait = .ok [own]
      ∧ own.contents.entries.head? = some first
      ∧ ∀ entry ∈ own.contents.entries, ∃ block, entry.siblings = some block
        ∧ context.OwnRows entities trait group.references block.rows
        ∧ (entities.symbol? symbol.reference = some symbol →
            symbol.reference ∈ group.references →
            ⟨symbol.reference, first.tokens⟩ ∈ block.rows
              ∧ ∀ row ∈ block.rows, row.identifier = symbol.reference →
                row.tokens = first.tokens) := by
  have shown : context.shownTrait? symbol trait
      = some ⟨trait, ⟨(symbol.declarations trait).map (context.shownEntry symbol trait)⟩⟩ :=
    if_neg (by simpa using declared)
  obtain ⟨first, heads⟩ := exists_first_of_shownTrait? shown
  refine ⟨_, first, ?_, heads, fun entry member => ?_⟩
  · rw [sectionsFor_eq quiet, shown]
    rfl
  · obtain ⟨pair, -, rfl⟩ := List.mem_map.mp member
    refine ⟨context.shownBlock trait group, ?_,
      ownRows_filterMap quiet served trait group.references, fun stored listed => ?_⟩
    · show (symbol.overloads? trait).map _ = _
      rw [overloaded]
      rfl
    · -- the symbol finds itself, and its row is its own first entry
      have itself : context.shownRow? trait symbol.reference
          = some ⟨symbol.reference, first.tokens⟩ := by
        rw [shownRow?_eq_first served, stored, Option.bind_some, shown, Option.bind_some, heads]
        rfl
      refine ⟨List.mem_filterMap.mpr ⟨_, listed, itself⟩, fun row present same => ?_⟩
      obtain ⟨reference, -, found⟩ := List.mem_filterMap.mp present
      obtain rfl : symbol.reference = reference := same.symm.trans (identifier_of_shownRow? found)
      obtain rfl := Option.some.inj (itself.symm.trans found)
      rfl

/-- The function that lists itself finds its own declaration; the bare symbol beside it has none. -/
theorem swap_agrees_with_own_section :
    let entities := Store.ofNodes [.symbol swap, .symbol (.bare ⟨"doc://Kit/bare"⟩ .swift)]
    let group : OverloadGroup := ⟨[⟨"doc://Kit/swap"⟩, ⟨"doc://Kit/bare"⟩], 7⟩
    kit.IsQuiet ∧ kit.LooksUpIn entities ∧ swap.declarations (.language "occ") ≠ []
      ∧ swap.overloads? (.language "occ") = some group
      ∧ ∃ (own : TraitSection) (first : Entry),
        kit.sectionsFor swap (.language "occ") = .ok [own]
        ∧ ∀ entry ∈ own.contents.entries, ∃ block, entry.siblings = some block
          ∧ kit.OwnRows entities (.language "occ") group.references block.rows
          ∧ ⟨⟨"doc://Kit/swap"⟩, first.tokens⟩ ∈ block.rows := by
  intro entities group
  have quiet : kit.IsQuiet := nofun
  -- registering an identifier leaves the nodes alone
  have served : kit.LooksUpIn entities := rfl
  have declared : swap.declarations (.language "occ") ≠ [] := by decide
  have overloaded : swap.overloads? (.language "occ") = some group := rfl
  obtain ⟨own, first, sections, -, rows⟩ :=
    rows_agree_with_own_sections quiet served declared overloaded
  refine ⟨quiet, served, declared, overloaded, own, first, sections, fun entry member => ?_⟩
  obtain ⟨block, shown, listed, itself⟩ := rows entry member
  exact ⟨block, shown, listed, (itself rfl List.mem_cons_self).1⟩

end DeclarationDocs.Context
