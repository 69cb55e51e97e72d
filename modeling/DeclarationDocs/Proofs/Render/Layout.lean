import Mathlib.Data.List.Basic
import DeclarationDocs.Proofs.Render.Quiet
import DeclarationDocs.Proofs.Text.ByteOrder

/-!
# The layout of a section

A section is laid out by walking the traits of its symbol in trait order and, within a trait, the
platform declarations in the order of their list. Nothing about an entry depends on the entries
before it, and a trait with an empty list leaves no gap.

Main statement: `Context.section?_eq_layout`.
-/

namespace DeclarationDocs

namespace Trait

/-- The fallback trait comes before every language, and languages come in the order of the bytes of
their identifiers. -/
def ComesBefore : Trait → Trait → Prop
  | fallback, language _ => True
  | language left, language right => Text.bytes left < Text.bytes right
  | _, fallback => False

theorem comesBefore_of_lt {left right : Trait} (less : left < right) : left.ComesBefore right := by
  cases left with
  | fallback =>
    cases right with
    | fallback => exact less
    | language id => trivial
  | language left =>
    cases right with
    | fallback => exact less
    | language right => exact (Text.lt_iff_bytes_lt left right).mp less

end Trait

namespace Symbol

/-- The declarations of a symbol with their traits, in the order in which they are shown. -/
def declared (symbol : Symbol) : List (Trait × PlatformDeclaration) :=
  symbol.declarationVariants.entries.flatMap fun (trait, pairs) => pairs.map (trait, ·)

theorem mem_declarations_of_mem_declared {symbol : Symbol} {trait : Trait}
    {pair : PlatformDeclaration} (member : (trait, pair) ∈ symbol.declared) :
    pair ∈ symbol.declarations trait := by
  obtain ⟨entry, stored, inside⟩ := List.mem_flatMap.mp member
  obtain ⟨shown, listed, same⟩ := List.mem_map.mp inside
  obtain ⟨rfl, rfl⟩ := Prod.mk.inj same
  rw [declarations_of_mem stored]
  exact listed

end Symbol

namespace Context

/-- The entries of a symbol, each with the block of its trait. -/
def layout (context : Context) (symbol : Symbol) (blocks : Trait → Option SiblingBlock) :
    List Entry :=
  symbol.declarationVariants.entries.flatMap fun (trait, pairs) =>
    pairs.map fun pair =>
      { languages := [trait.interfaceLanguage?.getD symbol.sourceLanguage.id]
        platforms := Platform.arranged pair.platforms
        tokens := pair.declaration.fragments.map fun fragment =>
          ⟨fragment.kind, fragment.spelling, fragment.preciseIdentifier.bind context.resolve?⟩
        siblings := blocks trait }

/-- A trait without declarations has no section, and the entries of the others are laid out. -/
theorem entries_of_shownTrait? (context : Context) (symbol : Symbol) (trait : Trait) :
    (context.shownTrait? symbol trait).toList.flatMap (·.contents.entries)
      = (symbol.declarations trait).map (context.shownEntry symbol trait) := by
  unfold shownTrait?
  cases symbol.declarations trait with
  | nil => rfl
  | cons pair rest =>
    rw [if_neg (by simp), Option.toList_some, List.flatMap_singleton]

theorem entries_eq_layout (context : Context) (symbol : Symbol) :
    (context.shownTraits symbol).flatMap (·.contents.entries)
      = context.layout symbol fun trait =>
          (symbol.overloads? trait).map (context.shownBlock trait) := by
  unfold shownTraits layout Symbol.traits
  rw [List.filterMap_eq_flatMap_toList, List.flatMap_assoc, List.flatMap_map]
  -- trait by trait
  apply List.flatMap_congr
  intro entry member
  rw [entries_of_shownTrait?, show symbol.declarations (TraitMap.key entry) = entry.2 from
    Symbol.declarations_of_mem member]
  rfl

/-- The entries of a section show the declarations of the symbol, one by one. -/
theorem entries_eq_map_declared (context : Context) (symbol : Symbol) :
    (context.shownTraits symbol).flatMap (·.contents.entries)
      = symbol.declared.map fun (trait, pair) => context.shownEntry symbol trait pair := by
  rw [entries_eq_layout]
  unfold layout Symbol.declared
  rw [List.map_flatMap]
  refine List.flatMap_congr fun entry _ => ?_
  rw [List.map_map]
  rfl

/-- A quiet context gives a symbol a section exactly when it has declarations. The section has one
entry for each platform declaration, trait after trait in trait order, and every entry of a trait
shows the block that is rendered for the trait's overload group. -/
theorem section?_eq_layout {context : Context} (quiet : context.IsQuiet) (symbol : Symbol) :
    (symbol.declarationVariants.entries.Pairwise fun one other => one.1.ComesBefore other.1)
      ∧ ∃ blocks : Trait → Option SiblingBlock,
        (∀ trait, (context.block? trait (symbol.overloads? trait)).outcome = .ok (blocks trait))
        ∧ (context.section? symbol).outcome
          = .ok (if symbol.hasDeclarations then some ⟨context.layout symbol blocks⟩ else none) := by
  refine ⟨symbol.declarationVariants.ascending.imp Trait.comesBefore_of_lt,
    fun trait => (symbol.overloads? trait).map (context.shownBlock trait), fun trait => ?_, ?_⟩
  · rw [block?_eq quiet]
  · rw [section?_eq quiet, ← entries_eq_layout]
    rfl

/-! ## A function in two languages -/

/-- A function that lists itself and a bare symbol as its overloads in one of its languages. -/
def swap : Symbol :=
  ((((Symbol.bare ⟨"doc://Kit/swap"⟩ .swift).withDeclaration (.language "occ")
      ⟨[some .macOS, none], ⟨[.text "- swap:", .typeIdentifier "Int" "s:Si"]⟩⟩).withDeclaration
      .fallback ⟨[], ⟨[.keyword "func", .typeIdentifier "Bar" "s:Bar"]⟩⟩).withDeclarations
      (.language "data") []).withOverloads (.language "occ")
    ⟨[⟨"doc://Kit/swap"⟩, ⟨"doc://Kit/bare"⟩], 7⟩

/-- A store that holds the function and the bare symbol and knows one identifier. -/
def shelf : Store :=
  (Store.ofNodes [.symbol swap, .symbol (.bare ⟨"doc://Kit/bare"⟩ .swift)]).register "s:Si"
    ⟨"doc://Swift/Int"⟩

/-- The context that looks everything up in that store. -/
def kit : Context := ofStores shelf shelf .standard

/-- A type that the function names. -/
def bar : Node := .symbol ((Symbol.bare ⟨"doc://Kit/Bar"⟩ .swift).withPreciseIdentifier "s:Bar")

/-- An article beside them. -/
def guide : Node := .article ⟨⟨"doc://Kit/Guide"⟩, "Guide"⟩

/-- The section of the function is laid out trait after trait. -/
theorem section?_swap_eq_layout :
    kit.IsQuiet ∧ swap.hasDeclarations = true
      ∧ ∃ blocks : Trait → Option SiblingBlock,
        (∀ trait, (kit.block? trait (swap.overloads? trait)).outcome = .ok (blocks trait))
        ∧ (kit.section? swap).outcome = .ok (some ⟨kit.layout swap blocks⟩) := by
  have quiet : kit.IsQuiet := nofun
  obtain ⟨-, blocks, rendered, laidOut⟩ := section?_eq_layout quiet swap
  have present : swap.hasDeclarations = true := by decide
  rw [if_pos present] at laidOut
  exact ⟨quiet, present, blocks, rendered, laidOut⟩

example : (kit.section? swap).outcome = .ok (some ⟨[
    ⟨["swift"], [], [⟨.keyword, "func", none⟩, ⟨.typeIdentifier, "Bar", none⟩], none⟩,
    ⟨["occ"], [none, some .macOS],
      [⟨.text, "- swap:", none⟩, ⟨.typeIdentifier, "Int", some ⟨"doc://Swift/Int"⟩⟩],
      some ⟨[⟨⟨"doc://Kit/swap"⟩,
        [⟨.text, "- swap:", none⟩, ⟨.typeIdentifier, "Int", some ⟨"doc://Swift/Int"⟩⟩]⟩], 7⟩⟩]⟩) :=
  rfl

end Context

end DeclarationDocs
