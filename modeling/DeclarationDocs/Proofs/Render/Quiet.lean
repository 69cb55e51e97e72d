import DeclarationDocs.Collector
import DeclarationDocs.Render.Page

/-!
# Quiet rendering

At the levels `ignore` and `warn` rendering cannot end with a fault, and each of its steps is a pure
function of the context: one for the value and one for what is traced on the way. This module gives
those functions and proves one equation per step.

Main statements: `Context.row?_eq` is the only place where the level matters, and
`Context.traitSections_eq`, `Context.section?_eq` and `Context.pages_eq` describe whole runs.
-/

namespace DeclarationDocs

namespace Run

variable {α β : Type}

theorem bind_of_ok {value : α} {trace : List Effect} (next : α → Run β) :
    (⟨.ok value, trace⟩ : Run α) >>= next = ⟨(next value).outcome, trace ++ (next value).trace⟩ :=
  rfl

theorem bind_pure_of_ok {value : α} {trace : List Effect} (f : α → β) :
    ((⟨.ok value, trace⟩ : Run α) >>= fun value => pure (f value)) = ⟨.ok (f value), trace⟩ := by
  rw [bind_of_ok]
  exact Run.ext rfl (List.append_nil trace)

/-- When every item is a run with a value, so is the list, and the traces follow one another. -/
theorem mapM_of_ok {item : α → Run β} {value : α → β} {trace : α → List Effect}
    (each : ∀ a, item a = ⟨.ok (value a), trace a⟩) (list : List α) :
    list.mapM item = ⟨.ok (list.map value), list.flatMap trace⟩ := by
  induction list with
  | nil => rfl
  | cons a rest ih =>
    rw [List.mapM_cons, each, bind_of_ok, ih, bind_pure_of_ok]
    rfl

end Run

theorem Trace.reports_flatMap {α : Type} (trace : α → List Effect) (list : List α) :
    reports (list.flatMap trace) = list.flatMap fun a => reports (trace a) := by
  unfold reports
  rw [List.filterMap_flatMap]

namespace Context

/-- No inconsistency ends a run in this context. -/
def IsQuiet (context : Context) : Prop := context.config.missingOverloadFragments ≠ .assert

/-! ## Fragments -/

/-- The reference to which a fragment links. -/
def target? (context : Context) (fragment : Fragment) : Option Reference :=
  fragment.preciseIdentifier.bind context.resolve?

/-- The token as which a fragment is shown. -/
def shownFragment (context : Context) (fragment : Fragment) : LinkedToken :=
  ⟨fragment.kind, fragment.spelling, context.target? fragment⟩

/-- What rendering a fragment traces: the link, or the identifier that leads nowhere. -/
def fragmentTrace (context : Context) (fragment : Fragment) : List Effect :=
  match fragment.preciseIdentifier with
  | none => []
  | some preciseIdentifier =>
    match context.resolve? preciseIdentifier with
    | some reference => [.report reference]
    | none => [.log (.unresolvedFragment preciseIdentifier)]

theorem token_eq (context : Context) (fragment : Fragment) :
    context.token fragment
      = ⟨.ok (context.shownFragment fragment), context.fragmentTrace fragment⟩ := by
  obtain ⟨kind, spelling, preciseIdentifier⟩ := fragment
  cases preciseIdentifier with
  | none => rfl
  | some preciseIdentifier =>
    unfold token shownFragment target? fragmentTrace link
    simp only [Option.bind_some]
    cases context.resolve? preciseIdentifier with
    | none => rfl
    | some reference => rfl

theorem tokens_eq (context : Context) (fragments : List Fragment) :
    context.tokens fragments
      = ⟨.ok (fragments.map context.shownFragment), fragments.flatMap context.fragmentTrace⟩ :=
  Run.mapM_of_ok (token_eq context) fragments

/-! ## Sibling blocks -/

/-- The declaration that a listed overload contributes to the block of a trait. -/
def siblingDeclaration? (context : Context) (trait : Trait) (reference : Reference) :
    Option Declaration :=
  match context.entity reference with
  | .ok (.symbol sibling) => sibling.firstDeclaration? trait
  | _ => none

/-- The row of a listed overload. -/
def shownRow? (context : Context) (trait : Trait) (reference : Reference) : Option SiblingRow :=
  (context.siblingDeclaration? trait reference).map fun declaration =>
    ⟨reference, declaration.fragments.map context.shownFragment⟩

/-- What is traced about a listed overload without a declaration for the trait. -/
def missingTrace (context : Context) (reference : Reference) (trait : Trait) : List Effect :=
  match context.config.missingOverloadFragments with
  | .ignore => []
  | _ => [.log (.missingFragments reference trait)]

/-- What rendering a listed overload traces: why it is left out, or the trace of its fragments. -/
def rowTrace (context : Context) (trait : Trait) (reference : Reference) : List Effect :=
  match context.entity reference with
  | .error error => [.log (.unresolvedOverload reference error)]
  | .ok (.article _) => [.log (.notASymbol reference)]
  | .ok (.symbol sibling) =>
    match sibling.firstDeclaration? trait with
    | none => context.missingTrace reference trait
    | some declaration => declaration.fragments.flatMap context.fragmentTrace

theorem flagMissing_eq {context : Context} (quiet : context.IsQuiet) (reference : Reference)
    (trait : Trait) :
    context.flagMissing reference trait = ⟨.ok (), context.missingTrace reference trait⟩ := by
  unfold flagMissing missingTrace
  unfold IsQuiet at quiet
  cases level : context.config.missingOverloadFragments with
  | ignore => rfl
  | warn => rfl
  | assert => exact absurd level quiet

theorem row?_eq {context : Context} (quiet : context.IsQuiet) (trait : Trait)
    (reference : Reference) :
    context.row? trait reference
      = ⟨.ok (context.shownRow? trait reference), context.rowTrace trait reference⟩ := by
  unfold row? shownRow? siblingDeclaration? rowTrace
  -- an unknown entity and an article are logged; a symbol has a declaration or is flagged
  cases context.entity reference with
  | error error => rfl
  | ok node =>
    cases node with
    | article page => rfl
    | symbol sibling =>
      dsimp only
      cases sibling.firstDeclaration? trait with
      | none =>
        dsimp only
        rw [flagMissing_eq quiet, Run.bind_pure_of_ok]
        rfl
      | some declaration =>
        dsimp only
        rw [tokens_eq, Run.bind_pure_of_ok]
        rfl

/-- The block of an overload group. -/
def shownBlock (context : Context) (trait : Trait) (group : OverloadGroup) : SiblingBlock :=
  ⟨group.references.filterMap (context.shownRow? trait), group.displayIndex⟩

/-- What rendering the block of a trait traces. -/
def blockTrace (context : Context) (trait : Trait) : Option OverloadGroup → List Effect
  | some group => group.references.flatMap (context.rowTrace trait)
  | none => []

theorem block?_eq {context : Context} (quiet : context.IsQuiet) (trait : Trait)
    (group? : Option OverloadGroup) :
    context.block? trait group?
      = ⟨.ok (group?.map (context.shownBlock trait)), context.blockTrace trait group?⟩ := by
  cases group? with
  | none => rfl
  | some group =>
    show some <$> context.block trait group = _
    unfold block
    rw [Run.mapM_of_ok (row?_eq quiet trait), Run.bind_pure_of_ok, map_eq_pure_bind,
      Run.bind_pure_of_ok, List.filterMap_map]
    rfl

/-! ## Sections of traits -/

/-- The entry of a platform declaration. -/
def shownEntry (context : Context) (symbol : Symbol) (trait : Trait) (pair : PlatformDeclaration) :
    Entry where
  languages := [symbol.languageId trait]
  platforms := Platform.arranged pair.platforms
  tokens := pair.declaration.fragments.map context.shownFragment
  siblings := (symbol.overloads? trait).map (context.shownBlock trait)

/-- What rendering a platform declaration traces. -/
def pairTrace (context : Context) (pair : PlatformDeclaration) : List Effect :=
  pair.declaration.fragments.flatMap context.fragmentTrace

/-- What rendering a trait traces: its own declarations first, then its sibling block, once. -/
def traitTrace (context : Context) (symbol : Symbol) (trait : Trait) : List Effect :=
  if (symbol.declarations trait).isEmpty then []
  else (symbol.declarations trait).flatMap context.pairTrace
    ++ context.blockTrace trait (symbol.overloads? trait)

theorem entries_eq {context : Context} (quiet : context.IsQuiet) (symbol : Symbol)
    (trait : Trait) :
    context.entries symbol trait
      = ⟨.ok ((symbol.declarations trait).map (context.shownEntry symbol trait)),
          context.traitTrace symbol trait⟩ := by
  unfold entries traitTrace
  cases pairs : symbol.declarations trait with
  | nil => rfl
  | cons pair rest =>
    -- each platform declaration is shown before the block is rendered
    have shown : ∀ pair : PlatformDeclaration, context.shownPair pair
        = ⟨.ok (Platform.arranged pair.platforms,
            pair.declaration.fragments.map context.shownFragment), context.pairTrace pair⟩ := by
      intro pair
      unfold shownPair pairTrace
      rw [tokens_eq, Run.bind_pure_of_ok]
    dsimp only [List.isEmpty_cons]
    rw [if_neg Bool.false_ne_true, if_neg Bool.false_ne_true, Run.mapM_of_ok shown,
      Run.bind_of_ok, block?_eq quiet, Run.bind_pure_of_ok, List.map_map]
    rfl

/-- The section of a trait, if the symbol has declarations for it. -/
def shownTrait? (context : Context) (symbol : Symbol) (trait : Trait) : Option TraitSection :=
  if (symbol.declarations trait).isEmpty then none
  else some ⟨trait, ⟨(symbol.declarations trait).map (context.shownEntry symbol trait)⟩⟩

theorem traitSection?_eq {context : Context} (quiet : context.IsQuiet) (symbol : Symbol)
    (trait : Trait) :
    context.traitSection? symbol trait
      = ⟨.ok (context.shownTrait? symbol trait), context.traitTrace symbol trait⟩ := by
  unfold traitSection? shownTrait?
  rw [entries_eq quiet, Run.bind_pure_of_ok, List.isEmpty_map]

end Context

namespace Symbol

/-- The traits for which a symbol has a list of declarations, in trait order. -/
def traits (symbol : Symbol) : List Trait := symbol.declarationVariants.entries.map TraitMap.key

/-- The list stored for a trait is what the trait's declarations are. -/
theorem declarations_of_mem {symbol : Symbol} {entry : Trait × List PlatformDeclaration}
    (member : entry ∈ symbol.declarationVariants.entries) :
    symbol.declarations entry.1 = entry.2 := by
  have found := Catalog.find?_eq_some_of_mem member
  unfold declarations TraitMap.get?
  rw [show symbol.declarationVariants.find? entry.1 = some entry from found]
  rfl

/-- A symbol has declarations exactly when one of its traits has. -/
theorem hasDeclarations_eq_false_iff (symbol : Symbol) :
    symbol.hasDeclarations = false
      ↔ ∀ trait ∈ symbol.traits, symbol.declarations trait = [] := by
  unfold hasDeclarations traits
  rw [List.any_eq_false]
  constructor
  · intro none trait listed
    obtain ⟨entry, member, rfl⟩ := List.mem_map.mp listed
    rw [show symbol.declarations (TraitMap.key entry) = entry.2 from declarations_of_mem member]
    simpa using none entry member
  · intro none entry member
    have blank : symbol.declarations entry.1 = [] := none _ (List.mem_map_of_mem member)
    rw [declarations_of_mem member] at blank
    simp [blank]

end Symbol

namespace Context

/-! ## Whole sections -/

/-- The sections of a symbol's traits. -/
def shownTraits (context : Context) (symbol : Symbol) : List TraitSection :=
  symbol.traits.filterMap (context.shownTrait? symbol)

/-- What rendering the traits of a symbol traces. -/
def traitsTrace (context : Context) (symbol : Symbol) : List Effect :=
  symbol.traits.flatMap (context.traitTrace symbol)

theorem traitSections_eq {context : Context} (quiet : context.IsQuiet) (symbol : Symbol) :
    context.traitSections symbol
      = ⟨.ok (context.shownTraits symbol), context.traitsTrace symbol⟩ := by
  unfold traitSections
  rw [Run.mapM_of_ok (traitSection?_eq quiet symbol), Run.bind_pure_of_ok, List.filterMap_map]
  rfl

/-- The traits without declarations are the ones that have no section. -/
theorem shownTraits_eq_nil_iff (context : Context) (symbol : Symbol) :
    context.shownTraits symbol = [] ↔ symbol.hasDeclarations = false := by
  rw [Symbol.hasDeclarations_eq_false_iff, shownTraits, List.filterMap_eq_nil_iff]
  -- one trait at a time
  refine forall₂_congr fun trait _ => ?_
  unfold shownTrait?
  cases symbol.declarations trait with
  | nil => simp
  | cons pair rest => simp

/-- The declarations section of a symbol. -/
def shownSection? (context : Context) (symbol : Symbol) : Option Section :=
  if symbol.hasDeclarations then
    some ⟨(context.shownTraits symbol).flatMap (·.contents.entries)⟩
  else none

/-- What rendering a symbol traces. -/
def sectionTrace (context : Context) (symbol : Symbol) : List Effect :=
  .enter symbol.reference ::
    (context.traitsTrace symbol
      ++ if symbol.hasDeclarations then [] else [.log .noDeclarations]) ++ [.leave]

theorem section?_eq {context : Context} (quiet : context.IsQuiet) (symbol : Symbol) :
    context.section? symbol
      = ⟨.ok (context.shownSection? symbol), context.sectionTrace symbol⟩ := by
  unfold section? shownSection? sectionTrace
  rw [traitSections_eq quiet, Run.bind_of_ok]
  cases present : symbol.hasDeclarations with
  | false =>
    rw [(shownTraits_eq_nil_iff context symbol).mpr present]
    rfl
  | true =>
    have some : (context.shownTraits symbol).isEmpty = false := by
      rw [List.isEmpty_eq_false_iff, ne_eq, shownTraits_eq_nil_iff, present]
      exact Bool.noConfusion
    rw [some]
    rfl

/-- The section of a symbol together with the symbol's reference. -/
def shownPage? (context : Context) (symbol : Symbol) : Option (Reference × Section) :=
  (context.shownSection? symbol).map fun contents => (symbol.reference, contents)

theorem pages_eq {context : Context} (quiet : context.IsQuiet) (symbols : List Symbol) :
    context.pages symbols
      = ⟨.ok (symbols.filterMap context.shownPage?), symbols.flatMap context.sectionTrace⟩ := by
  have page : ∀ symbol : Symbol, context.page? symbol
      = ⟨.ok (context.shownPage? symbol), context.sectionTrace symbol⟩ := by
    intro symbol
    unfold page? shownPage?
    rw [section?_eq quiet, Run.bind_pure_of_ok]
  unfold pages
  rw [Run.mapM_of_ok page, Run.bind_pure_of_ok, List.filterMap_map]
  rfl

end Context

end DeclarationDocs
