import Mathlib.Data.List.Forall2
import DeclarationDocs.Proofs.Render.Layout
import DeclarationDocs.Proofs.Render.Reports

/-!
# Contexts that know more

A context that knows more than another one never takes anything out of a section. Texts that were
plain may become links, and siblings that were passed over may get a row; all else stays as it is.

Main statement: `Context.section?_grows`.
-/

namespace DeclarationDocs

/-- What the narrow context finds, the wide one finds as well, and finds the same. -/
structure Context.IsExtendedBy (narrow wide : Context) : Prop where
  resolves {preciseIdentifier : String} {reference : Reference}
    (found : narrow.resolve? preciseIdentifier = some reference) :
    wide.resolve? preciseIdentifier = some reference
  finds {reference : Reference} {node : Node} (found : narrow.entity reference = .ok node) :
    wide.entity reference = .ok node

/-! ## Sections that grow -/

/-- The token is the same, or it was plain and is now a link. -/
structure LinkedToken.Grows (less more : LinkedToken) : Prop where
  kind_eq : less.kind = more.kind
  text_eq : less.text = more.text
  identifier : less.identifier = more.identifier
    ∨ less.identifier = none ∧ ∃ reference, more.identifier = some reference

structure SiblingRow.Grows (less more : SiblingRow) : Prop where
  identifier_eq : less.identifier = more.identifier
  tokens : List.Forall₂ LinkedToken.Grows less.tokens more.tokens

/-- Rows are added among those that were there. -/
structure SiblingBlock.Grows (less more : SiblingBlock) : Prop where
  rows : List.SublistForall₂ SiblingRow.Grows less.rows more.rows
  displayIndex_eq : less.displayIndex = more.displayIndex

structure Entry.Grows (less more : Entry) : Prop where
  languages_eq : less.languages = more.languages
  platforms_eq : less.platforms = more.platforms
  tokens : List.Forall₂ LinkedToken.Grows less.tokens more.tokens
  siblings : Option.Rel SiblingBlock.Grows less.siblings more.siblings

structure TraitSection.Grows (less more : TraitSection) : Prop where
  trait_eq : less.trait = more.trait
  entries : List.Forall₂ Entry.Grows less.contents.entries more.contents.entries

structure Section.Grows (less more : Section) : Prop where
  entries : List.Forall₂ Entry.Grows less.entries more.entries

/-! ## Links that grow -/

/-- Lists that are joined from growing pieces grow, also when pieces are added. -/
theorem flatMap_sublist_flatMap {α β γ : Type} {R : α → β → Prop} {f : α → List γ} {g : β → List γ}
    (pieces : ∀ a b, R a b → (f a).Sublist (g b)) {less : List α} {more : List β}
    (grows : List.SublistForall₂ R less more) : (less.flatMap f).Sublist (more.flatMap g) := by
  induction grows with
  | nil => exact List.nil_sublist _
  | cons related _ ih =>
    rw [List.flatMap_cons, List.flatMap_cons]
    exact (pieces _ _ related).append ih
  | cons_right _ ih =>
    rw [List.flatMap_cons]
    exact ih.trans (List.sublist_append_right _ _)

theorem sublistForall₂_of_forall₂ {α β : Type} {R : α → β → Prop} {less : List α} {more : List β}
    (grows : List.Forall₂ R less more) : List.SublistForall₂ R less more :=
  List.sublistForall₂_iff.mpr ⟨more, grows, .refl more⟩

theorem LinkedToken.links_sublist {less more : List LinkedToken}
    (grows : List.Forall₂ Grows less more) : (links less).Sublist (links more) := by
  unfold links
  rw [List.filterMap_eq_flatMap_toList, List.filterMap_eq_flatMap_toList]
  refine flatMap_sublist_flatMap (fun one other token => ?_) (sublistForall₂_of_forall₂ grows)
  rcases token.identifier with same | ⟨plain, -⟩
  · rw [same]
  · rw [plain]
    exact List.nil_sublist _

theorem SiblingBlock.Grows.links_sublist {less more : SiblingBlock} (grows : less.Grows more) :
    less.links.Sublist more.links :=
  flatMap_sublist_flatMap (fun _ _ row => LinkedToken.links_sublist row.tokens) grows.rows

theorem TraitSection.Grows.links_sublist {less more : TraitSection} (grows : less.Grows more) :
    less.links.Sublist more.links := by
  obtain ⟨trait, ⟨less⟩⟩ := less
  obtain ⟨trait', ⟨more⟩⟩ := more
  have entries : List.Forall₂ Entry.Grows less more := grows.entries
  refine List.Sublist.append ?_ ?_
  · exact flatMap_sublist_flatMap (fun _ _ entry => LinkedToken.links_sublist entry.tokens)
      (sublistForall₂_of_forall₂ entries)
  · -- the first entries speak for the blocks
    dsimp only
    cases entries with
    | nil => exact List.nil_sublist _
    | @cons one other _ _ first _ =>
      rw [List.head?_cons, List.head?_cons, Option.bind_some, Option.bind_some]
      have shared := first.siblings
      generalize one.siblings = fewer at shared ⊢
      generalize other.siblings = greater at shared ⊢
      cases shared with
      | none => exact List.nil_sublist _
      | some block => exact block.links_sublist

namespace Context

/-! ## From fragments to sections -/

section Growth

variable {narrow wide : Context} (extended : narrow.IsExtendedBy wide)

include extended

theorem shownFragment_grows (fragment : Fragment) :
    (narrow.shownFragment fragment).Grows (wide.shownFragment fragment) := by
  refine ⟨rfl, rfl, ?_⟩
  show narrow.target? fragment = wide.target? fragment
    ∨ narrow.target? fragment = none ∧ ∃ reference, wide.target? fragment = some reference
  unfold target?
  cases fragment.preciseIdentifier with
  | none => exact .inl rfl
  | some preciseIdentifier =>
    rw [Option.bind_some, Option.bind_some]
    cases found : narrow.resolve? preciseIdentifier with
    | some reference => exact .inl (extended.resolves found).symm
    | none =>
      cases wide.resolve? preciseIdentifier with
      | none => exact .inl rfl
      | some reference => exact .inr ⟨rfl, reference, rfl⟩

theorem shownFragments_grow (fragments : List Fragment) :
    List.Forall₂ LinkedToken.Grows (fragments.map narrow.shownFragment)
      (fragments.map wide.shownFragment) := by
  rw [List.forall₂_map_left_iff, List.forall₂_map_right_iff, List.forall₂_same]
  exact fun fragment _ => shownFragment_grows extended fragment

theorem siblingDeclaration?_of_isExtendedBy {trait : Trait} {reference : Reference}
    {declaration : Declaration}
    (first : narrow.siblingDeclaration? trait reference = some declaration) :
    wide.siblingDeclaration? trait reference = some declaration := by
  unfold siblingDeclaration? at first ⊢
  cases found : narrow.entity reference with
  | error error =>
    rw [found] at first
    cases first
  | ok node =>
    rw [found] at first
    rw [extended.finds found]
    exact first

/-- A listed overload keeps its row, and one that was passed over may get a row. -/
theorem rows_grow (trait : Trait) (references : List Reference) :
    List.SublistForall₂ SiblingRow.Grows (references.filterMap (narrow.shownRow? trait))
      (references.filterMap (wide.shownRow? trait)) := by
  induction references with
  | nil => exact .nil
  | cons reference rest ih =>
    rw [List.filterMap_cons, List.filterMap_cons]
    unfold shownRow? at ih ⊢
    cases first : narrow.siblingDeclaration? trait reference with
    | some declaration =>
      rw [siblingDeclaration?_of_isExtendedBy extended first]
      exact .cons ⟨rfl, shownFragments_grow extended declaration.fragments⟩ ih
    | none =>
      cases wide.siblingDeclaration? trait reference with
      | none => exact ih
      | some declaration => exact .cons_right ih

theorem shownEntry_grows (symbol : Symbol) (trait : Trait) (pair : PlatformDeclaration) :
    (narrow.shownEntry symbol trait pair).Grows (wide.shownEntry symbol trait pair) where
  languages_eq := rfl
  platforms_eq := rfl
  tokens := shownFragments_grow extended pair.declaration.fragments
  siblings := by
    show Option.Rel _ ((symbol.overloads? trait).map _) ((symbol.overloads? trait).map _)
    cases symbol.overloads? trait with
    | none => exact .none
    | some group => exact .some ⟨rows_grow extended trait group.references, rfl⟩

theorem shownTrait?_grows (symbol : Symbol) (trait : Trait) :
    Option.Rel TraitSection.Grows (narrow.shownTrait? symbol trait)
      (wide.shownTrait? symbol trait) := by
  unfold shownTrait?
  split
  · exact .none
  · refine .some ⟨rfl, ?_⟩
    rw [List.forall₂_map_left_iff, List.forall₂_map_right_iff, List.forall₂_same]
    exact fun pair _ => shownEntry_grows extended symbol trait pair

theorem shownTraits_grow (symbol : Symbol) :
    List.Forall₂ TraitSection.Grows (narrow.shownTraits symbol) (wide.shownTraits symbol) := by
  refine List.rel_filterMap (R := Eq) ?_ (List.forall₂_refl symbol.traits)
  rintro trait _ rfl
  exact shownTrait?_grows extended symbol trait

theorem shownSection?_grows (symbol : Symbol) :
    Option.Rel Section.Grows (narrow.shownSection? symbol) (wide.shownSection? symbol) := by
  unfold shownSection?
  split
  · exact .some ⟨List.rel_flatMap (shownTraits_grow extended symbol) fun _ _ shown => shown.entries⟩
  · exact .none

end Growth

/-- A quiet context that extends another one gives a symbol a section exactly when the other one
does. Its section has the same entries with the same texts, in which plain tokens may have become
links and rows may have been added to the blocks, and what was reported is still reported, in the
same order. -/
theorem section?_grows {narrow wide : Context} (quietNarrow : narrow.IsQuiet)
    (quietWide : wide.IsQuiet) (extended : narrow.IsExtendedBy wide) (symbol : Symbol) :
    ∃ less more, (narrow.section? symbol).outcome = .ok less
      ∧ (wide.section? symbol).outcome = .ok more
      ∧ Option.Rel Section.Grows less more
      ∧ (narrow.section? symbol).reports.Sublist (wide.section? symbol).reports := by
  refine ⟨_, _, congrArg Run.outcome (section?_eq quietNarrow symbol),
    congrArg Run.outcome (section?_eq quietWide symbol), shownSection?_grows extended symbol, ?_⟩
  rw [reports_section?_eq, reports_section?_eq, traitSections_eq quietNarrow,
    traitSections_eq quietWide, Run.reports, Run.reports, reports_traitsTrace, reports_traitsTrace]
  exact flatMap_sublist_flatMap (fun _ _ shown => shown.links_sublist)
    (sublistForall₂_of_forall₂ (shownTraits_grow extended symbol))

/-- Inserting a node under a new reference and with a new identifier, if any, extends a context. -/
theorem isExtendedBy_insert {index entities : Store} (config : Config) {node : Node}
    (absent : entities.node? node.reference = none)
    (unknown : ∀ preciseIdentifier, node.preciseIdentifier? = some preciseIdentifier →
      index.resolve? preciseIdentifier = none) :
    (ofStores index entities config).IsExtendedBy
      (ofStores (index.insert node) (entities.insert node) config) where
  resolves := by
    intro preciseIdentifier reference found
    change index.resolve? preciseIdentifier = some reference at found
    show (index.insert node).resolve? preciseIdentifier = some reference
    have other : node.preciseIdentifier? ≠ some preciseIdentifier := by
      intro carried
      rw [unknown preciseIdentifier carried] at found
      cases found
    rw [Store.resolve?_insert, if_neg other]
    exact found
  finds := by
    intro reference standing found
    change entities.entity reference = .ok standing at found
    show (entities.insert node).entity reference = .ok standing
    unfold Store.entity at found ⊢
    have other : node.reference ≠ reference := by
      rintro rfl
      rw [absent] at found
      cases found
    rw [Store.node?_insert, if_neg other]
    exact found

/-- Once the type is documented, the function links to it as well. -/
theorem section?_swap_grows :
    let wide := ofStores (shelf.insert bar) (shelf.insert bar) .standard
    kit.IsQuiet ∧ wide.IsQuiet ∧ kit.IsExtendedBy wide
      ∧ ∃ less more, (kit.section? swap).outcome = .ok less
        ∧ (wide.section? swap).outcome = .ok more
        ∧ Option.Rel Section.Grows less more
        ∧ (kit.section? swap).reports.Sublist (wide.section? swap).reports := by
  intro wide
  have quietKit : kit.IsQuiet := nofun
  have quietWide : wide.IsQuiet := nofun
  have extended : kit.IsExtendedBy wide := by
    refine isExtendedBy_insert .standard rfl fun preciseIdentifier carried => ?_
    obtain rfl : "s:Bar" = preciseIdentifier := Option.some.inj carried
    rfl
  exact ⟨quietKit, quietWide, extended, section?_grows quietKit quietWide extended swap⟩

end Context

end DeclarationDocs
