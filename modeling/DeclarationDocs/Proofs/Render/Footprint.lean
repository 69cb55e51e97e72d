import Mathlib.Data.List.Basic
import DeclarationDocs.Proofs.Render.Layout

/-!
# What a section depends on

Rendering a symbol looks at little of what there is to look up. Of a listed overload it sees whether
it is unknown, an article, or a symbol, and of a symbol only the first declaration for the trait; of
the index it sees where the identifiers on the shown fragments lead. Stores that agree on that much
give the same run at every level, faults included, so what is added or changed elsewhere leaves the
section alone.

Main statement: `Context.section?_local`.
-/

namespace DeclarationDocs

namespace Symbol

/-- The symbol has declarations for the trait, and the reference is in its group for the trait. -/
def Lists (symbol : Symbol) (trait : Trait) (reference : Reference) : Prop :=
  symbol.declarations trait ≠ []
    ∧ ∃ group, symbol.overloads? trait = some group ∧ reference ∈ group.references

theorem firstDeclaration?_eq_none_iff {symbol : Symbol} {trait : Trait} :
    symbol.firstDeclaration? trait = none ↔ symbol.declarations trait = [] := by
  unfold firstDeclaration?
  rw [Option.map_eq_none_iff, List.head?_eq_none_iff]

end Symbol

/-- What stands under a listed reference in two stores, when the block of the trait cannot tell the
difference. -/
inductive Node.AlikeIn (trait : Trait) : Option Node → Option Node → Prop where
  | absent : AlikeIn trait none none
  | article (one other : Article) : AlikeIn trait (some (.article one)) (some (.article other))
  | undeclared {one other : Symbol} (first : one.declarations trait = [])
      (second : other.declarations trait = []) :
      AlikeIn trait (some (.symbol one)) (some (.symbol other))
  | declared {one other : Symbol} {declaration : Declaration}
      (first : one.firstDeclaration? trait = some declaration)
      (second : other.firstDeclaration? trait = some declaration) :
      AlikeIn trait (some (.symbol one)) (some (.symbol other))

namespace Node

theorem alikeIn_of_firstDeclaration? {trait : Trait} {one other : Symbol}
    (same : one.firstDeclaration? trait = other.firstDeclaration? trait) :
    AlikeIn trait (some (.symbol one)) (some (.symbol other)) := by
  cases first : other.firstDeclaration? trait with
  | none =>
    exact .undeclared (Symbol.firstDeclaration?_eq_none_iff.mp (same.trans first))
      (Symbol.firstDeclaration?_eq_none_iff.mp first)
  | some declaration => exact .declared (same.trans first) first

theorem AlikeIn.refl (trait : Trait) : ∀ node? : Option Node, AlikeIn trait node? node?
  | none => .absent
  | some (.article page) => .article page page
  | some (.symbol _) => alikeIn_of_firstDeclaration? rfl

end Node

/-- Runs that are alike item by item are alike as a whole. -/
theorem Run.mapM_congr {α β : Type} {item other : α → Run β} {list : List α}
    (same : ∀ a ∈ list, item a = other a) : list.mapM item = list.mapM other := by
  induction list with
  | nil => rfl
  | cons a rest ih =>
    rw [List.mapM_cons, List.mapM_cons, same a List.mem_cons_self,
      ih fun b member => same b (List.mem_cons_of_mem a member)]

namespace Context

/-- A fragment that becomes a token of a symbol's section: one of the symbol's own, or one of the
declaration that a listed overload has for the trait. -/
inductive Shows (context : Context) (symbol : Symbol) : Fragment → Prop where
  | own {trait : Trait} {pair : PlatformDeclaration} {fragment : Fragment}
      (declared : pair ∈ symbol.declarations trait)
      (inside : fragment ∈ pair.declaration.fragments) : Shows context symbol fragment
  | sibling {trait : Trait} {reference : Reference} {declaration : Declaration}
      {fragment : Fragment} (listed : symbol.Lists trait reference)
      (first : context.siblingDeclaration? trait reference = some declaration)
      (inside : fragment ∈ declaration.fragments) : Shows context symbol fragment

/-- The identifier of the fragment, if it has one, leads in both contexts to the same place. -/
def LinkAlike (one other : Context) (fragment : Fragment) : Prop :=
  ∀ preciseIdentifier, fragment.preciseIdentifier = some preciseIdentifier →
    one.resolve? preciseIdentifier = other.resolve? preciseIdentifier

/-! ## From fragments to sections -/

section Congruence

variable {one other : Context}

theorem token_congr {fragment : Fragment} (links : one.LinkAlike other fragment) :
    one.token fragment = other.token fragment := by
  unfold token link
  cases named : fragment.preciseIdentifier with
  | none => rfl
  | some preciseIdentifier =>
    dsimp only
    rw [links preciseIdentifier named]

theorem tokens_congr {fragments : List Fragment}
    (links : ∀ fragment ∈ fragments, one.LinkAlike other fragment) :
    one.tokens fragments = other.tokens fragments :=
  Run.mapM_congr fun fragment member => token_congr (links fragment member)

theorem block?_congr {trait : Trait} {group? : Option OverloadGroup}
    (rows : ∀ group, group? = some group → ∀ reference ∈ group.references,
      one.row? trait reference = other.row? trait reference) :
    one.block? trait group? = other.block? trait group? := by
  cases group? with
  | none => rfl
  | some group =>
    show some <$> one.block trait group = some <$> other.block trait group
    unfold block
    rw [Run.mapM_congr (rows group rfl)]

/-- The entries of a trait are the same when its own fragments and the rows of its block are. -/
theorem entries_congr {symbol : Symbol} {trait : Trait}
    (links : ∀ pair ∈ symbol.declarations trait, ∀ fragment ∈ pair.declaration.fragments,
      one.LinkAlike other fragment)
    (rows : ∀ reference, symbol.Lists trait reference →
      one.row? trait reference = other.row? trait reference) :
    one.entries symbol trait = other.entries symbol trait := by
  have shown : ∀ pair ∈ symbol.declarations trait, one.shownPair pair = other.shownPair pair := by
    intro pair member
    unfold shownPair
    rw [tokens_congr (links pair member)]
  unfold entries
  by_cases bare : symbol.declarations trait = []
  · rw [bare]
    simp only [List.isEmpty_nil, ↓reduceIte]
  · have siblings : one.block? trait (symbol.overloads? trait)
        = other.block? trait (symbol.overloads? trait) :=
      block?_congr fun group overloaded reference listed =>
        rows reference ⟨bare, group, overloaded, listed⟩
    dsimp only
    rw [Run.mapM_congr shown, siblings]

theorem section?_congr {symbol : Symbol}
    (links : ∀ trait, ∀ pair ∈ symbol.declarations trait,
      ∀ fragment ∈ pair.declaration.fragments, one.LinkAlike other fragment)
    (rows : ∀ trait reference, symbol.Lists trait reference →
      one.row? trait reference = other.row? trait reference) :
    one.section? symbol = other.section? symbol := by
  have traits : ∀ trait, one.traitSection? symbol trait = other.traitSection? symbol trait := by
    intro trait
    unfold traitSection?
    rw [entries_congr (links trait) (rows trait)]
  unfold section? traitSections
  rw [funext traits]

end Congruence

/-! ## Stores that agree -/

theorem siblingDeclaration?_ofStores (index entities : Store) (config : Config) (trait : Trait)
    (reference : Reference) :
    (ofStores index entities config).siblingDeclaration? trait reference
      = (entities.symbol? reference).bind (·.firstDeclaration? trait) := by
  unfold siblingDeclaration? Store.symbol?
  rw [show (ofStores index entities config).entity = entities.entity from rfl, Store.entity]
  cases entities.node? reference with
  | none => rfl
  | some node => cases node <;> rfl

section Stores

variable {index index' entities entities' : Store} {config config' : Config} {symbol : Symbol}

/-- A row is the same when the block cannot tell what stands there apart and the row's own fragments
link alike. At the level `assert` this is also the row that ends the run. -/
theorem row?_congr {trait : Trait} {reference : Reference}
    (level : config.missingOverloadFragments = config'.missingOverloadFragments)
    (alike : Node.AlikeIn trait (entities.node? reference) (entities'.node? reference))
    (links : ∀ declaration,
      (ofStores index entities config).siblingDeclaration? trait reference = some declaration →
        ∀ fragment ∈ declaration.fragments,
          (ofStores index entities config).LinkAlike (ofStores index' entities' config') fragment) :
    (ofStores index entities config).row? trait reference
      = (ofStores index' entities' config').row? trait reference := by
  rw [siblingDeclaration?_ofStores, Store.symbol?] at links
  unfold row?
  rw [show (ofStores index entities config).entity = entities.entity from rfl,
    show (ofStores index' entities' config').entity = entities'.entity from rfl, Store.entity,
    Store.entity]
  generalize entities.node? reference = here at alike links ⊢
  generalize entities'.node? reference = there at alike ⊢
  cases alike with
  | absent => rfl
  | article one other => rfl
  | undeclared first second =>
    dsimp only
    rw [Symbol.firstDeclaration?_eq_none_iff.mpr first,
      Symbol.firstDeclaration?_eq_none_iff.mpr second]
    dsimp only
    unfold flagMissing
    rw [show (ofStores index entities config).config.missingOverloadFragments
      = (ofStores index' entities' config').config.missingOverloadFragments from level]
  | declared first second =>
    dsimp only
    rw [first, second]
    dsimp only
    rw [tokens_congr (links _ first)]

theorem section?_eq_of_alike
    (level : config.missingOverloadFragments = config'.missingOverloadFragments)
    (siblings : ∀ trait reference, symbol.Lists trait reference →
      Node.AlikeIn trait (entities.node? reference) (entities'.node? reference))
    (links : ∀ fragment, (ofStores index entities config).Shows symbol fragment →
      (ofStores index entities config).LinkAlike (ofStores index' entities' config') fragment) :
    (ofStores index entities config).section? symbol
      = (ofStores index' entities' config').section? symbol := by
  refine section?_congr (fun trait pair declared fragment inside => ?_)
    (fun trait reference listed => ?_)
  · exact links fragment (.own declared inside)
  · refine row?_congr level (siblings trait reference listed) fun declaration first fragment => ?_
    exact fun inside => links fragment (.sibling listed first inside)

/-- Inserting a node into either store makes no difference when the block of no trait can tell it
from what stood there and its identifier, where it is shown, leads to it already. -/
theorem section?_insert {node : Node}
    (siblings : ∀ trait, symbol.Lists trait node.reference →
      Node.AlikeIn trait (entities.node? node.reference) (some node))
    (links : ∀ fragment, (ofStores index entities config).Shows symbol fragment →
      ∀ preciseIdentifier, fragment.preciseIdentifier = some preciseIdentifier →
        node.preciseIdentifier? = some preciseIdentifier →
          index.resolve? preciseIdentifier = some node.reference)
    (resolving : index' ∈ [index, index.insert node])
    (looking : entities' ∈ [entities, entities.insert node]) :
    (ofStores index entities config).section? symbol
      = (ofStores index' entities' config).section? symbol := by
  simp only [List.mem_cons, List.not_mem_nil, or_false] at resolving looking
  refine section?_eq_of_alike rfl (fun trait reference listed => ?_)
    (fun fragment shown preciseIdentifier named => ?_)
  · rcases looking with rfl | rfl
    · exact .refl trait _
    · rw [Store.node?_insert]
      split
      next same =>
        obtain rfl := same
        exact siblings trait listed
      next => exact .refl trait _
  · show index.resolve? preciseIdentifier = index'.resolve? preciseIdentifier
    rcases resolving with rfl | rfl
    · rfl
    · rw [Store.resolve?_insert]
      split
      next carried => exact links fragment shown preciseIdentifier named carried
      next => rfl

end Stores

/-- Two contexts over stores give a symbol the same run when they have the same level, the block of
no trait can tell apart what stands under a listed reference, and the identifiers on the shown
fragments lead to the same places. So it makes no difference to insert a node that is not listed and
whose identifier is on no shown fragment, or to put in the place of a stored symbol another one that
has the same first declaration wherever it is listed and to which its identifier leads already. -/
theorem section?_local (symbol : Symbol) :
    (∀ (index index' entities entities' : Store) (config config' : Config),
      config.missingOverloadFragments = config'.missingOverloadFragments →
      (∀ trait reference, symbol.Lists trait reference →
        Node.AlikeIn trait (entities.node? reference) (entities'.node? reference)) →
      (∀ fragment, (ofStores index entities config).Shows symbol fragment →
        ∀ preciseIdentifier, fragment.preciseIdentifier = some preciseIdentifier →
          index.resolve? preciseIdentifier = index'.resolve? preciseIdentifier) →
      (ofStores index entities config).section? symbol
        = (ofStores index' entities' config').section? symbol)
    ∧ (∀ (index entities : Store) (config : Config) (node : Node),
      (∀ trait, ¬ symbol.Lists trait node.reference) →
      (∀ fragment, (ofStores index entities config).Shows symbol fragment →
        ∀ preciseIdentifier, fragment.preciseIdentifier = some preciseIdentifier →
          node.preciseIdentifier? ≠ some preciseIdentifier) →
      ∀ index' ∈ [index, index.insert node], ∀ entities' ∈ [entities, entities.insert node],
        (ofStores index entities config).section? symbol
          = (ofStores index' entities' config).section? symbol)
    ∧ ∀ (index entities : Store) (config : Config) (sibling changed : Symbol),
      entities.symbol? changed.reference = some sibling →
      (∀ preciseIdentifier, changed.preciseIdentifier = some preciseIdentifier →
        index.resolve? preciseIdentifier = some changed.reference) →
      (∀ trait, symbol.Lists trait changed.reference →
        changed.firstDeclaration? trait = sibling.firstDeclaration? trait) →
      ∀ index' ∈ [index, index.insert (.symbol changed)],
        ∀ entities' ∈ [entities, entities.insert (.symbol changed)],
          (ofStores index entities config).section? symbol
            = (ofStores index' entities' config).section? symbol := by
  refine ⟨?agreement, ?insertion, ?replacement⟩
  case agreement =>
    intro index index' entities entities' config config' level siblings links
    exact section?_eq_of_alike level siblings links
  case insertion =>
    intro index entities config node unlisted unnamed index' resolving entities' looking
    refine section?_insert (fun trait listed => absurd listed (unlisted trait)) ?_ resolving looking
    intro fragment shown preciseIdentifier named carried
    exact absurd carried (unnamed fragment shown preciseIdentifier named)
  case replacement =>
    intro index entities config sibling changed stored indexed kept index' resolving entities'
      looking
    refine section?_insert (fun trait listed => ?_) (fun _ _ preciseIdentifier _ => ?_) resolving
      looking
    · show Node.AlikeIn trait (entities.node? changed.reference) (some (.symbol changed))
      rw [Store.symbol?_eq_some_iff.mp stored]
      exact Node.alikeIn_of_firstDeclaration? (kept trait listed).symm
    · exact indexed preciseIdentifier

/-- The function in two languages has a group in one of them only. -/
theorem listed_of_swap {trait : Trait} {reference : Reference}
    (listed : swap.Lists trait reference) :
    trait = .language "occ"
      ∧ (reference = ⟨"doc://Kit/swap"⟩ ∨ reference = ⟨"doc://Kit/bare"⟩) := by
  obtain ⟨-, group, overloaded, member⟩ := listed
  unfold swap Symbol.withOverloads Symbol.overloads? at overloaded
  dsimp only at overloaded
  rw [TraitMap.get?_put] at overloaded
  split at overloaded
  next same =>
    obtain rfl := Option.some.inj overloaded
    exact ⟨same.symm, by simpa using member⟩
  next => cases overloaded

/-- The same symbols under other titles, and a guide beside them. -/
def retitled : Store :=
  .ofNodes [.symbol ((Symbol.bare ⟨"doc://Kit/bare"⟩ .swift).withTitle "Bare"), guide,
    .symbol (swap.withTitle "Swap")]

/-- The same identifier, known without any node. -/
def pointer : Store := Store.empty.register "s:Si" ⟨"doc://Swift/Int"⟩

theorem shelf_alike_retitled {trait : Trait} {reference : Reference}
    (listed : swap.Lists trait reference) :
    Node.AlikeIn trait (shelf.node? reference) (retitled.node? reference) := by
  obtain ⟨rfl, rfl | rfl⟩ := listed_of_swap listed
  · rw [show shelf.node? ⟨"doc://Kit/swap"⟩ = some (.symbol swap) from rfl,
      show retitled.node? ⟨"doc://Kit/swap"⟩ = some (.symbol (swap.withTitle "Swap")) from rfl]
    exact Node.alikeIn_of_firstDeclaration? rfl
  · rw [show shelf.node? ⟨"doc://Kit/bare"⟩
        = some (.symbol (.bare ⟨"doc://Kit/bare"⟩ .swift)) from rfl,
      show retitled.node? ⟨"doc://Kit/bare"⟩
        = some (.symbol ((Symbol.bare ⟨"doc://Kit/bare"⟩ .swift).withTitle "Bare")) from rfl]
    exact .undeclared rfl rfl

/-- New titles for the listed symbols, a guide beside them, an index without nodes and another log
filter leave the section of the function alone, and so does inserting the guide or the function
under its new title. -/
theorem section?_swap_local :
    (∀ trait reference, swap.Lists trait reference →
        Node.AlikeIn trait (shelf.node? reference) (retitled.node? reference))
      ∧ kit.section? swap = (ofStores pointer retitled ⟨.warn, ⟨"off"⟩⟩).section? swap
      ∧ (∀ trait, ¬ swap.Lists trait guide.reference)
      ∧ kit.section? swap
        = (ofStores (shelf.insert guide) (shelf.insert guide) .standard).section? swap
      ∧ shelf.symbol? ⟨"doc://Kit/swap"⟩ = some swap
      ∧ kit.section? swap
        = (ofStores shelf (shelf.insert (.symbol (swap.withTitle "Swap"))) .standard).section?
            swap := by
  have alike : ∀ trait reference, swap.Lists trait reference →
      Node.AlikeIn trait (shelf.node? reference) (retitled.node? reference) :=
    fun trait reference => shelf_alike_retitled
  have unlisted : ∀ trait, ¬ swap.Lists trait guide.reference := by
    intro trait listed
    obtain ⟨-, same | same⟩ := listed_of_swap listed
    · exact absurd same (by decide)
    · exact absurd same (by decide)
  have stored : shelf.symbol? ⟨"doc://Kit/swap"⟩ = some swap := rfl
  obtain ⟨agreeing, inserting, changing⟩ := section?_local swap
  refine ⟨alike, ?_, unlisted, ?_, stored, ?_⟩
  · exact agreeing shelf pointer shelf retitled .standard ⟨.warn, ⟨"off"⟩⟩ rfl alike
      fun _ _ _ _ => rfl
  · exact inserting shelf shelf .standard guide unlisted (fun _ _ _ _ => nofun) _
      (List.mem_cons_of_mem _ List.mem_cons_self) _ (List.mem_cons_of_mem _ List.mem_cons_self)
  · exact changing shelf shelf .standard swap (swap.withTitle "Swap") stored nofun
      (fun _ _ => rfl) shelf List.mem_cons_self _ (List.mem_cons_of_mem _ List.mem_cons_self)

end Context

end DeclarationDocs
