import Mathlib.Data.List.Forall2
import DeclarationDocs.Proofs.Platform
import DeclarationDocs.Proofs.Render.Footprint

/-!
# The order in which platforms are listed

Platforms are arranged before they are shown, and rendering looks at them nowhere else. Symbols that
differ only in the order of the platforms inside their declarations therefore give the same run, and
so do contexts whose entities differ in no more than that.

Main statement: `Context.platform_order_is_immaterial`.
-/

namespace DeclarationDocs

/-- The same declaration for the same platforms, which may be listed in another order. -/
structure PlatformDeclaration.Reorders (pair other : PlatformDeclaration) : Prop where
  platforms : pair.platforms.Perm other.platforms
  declaration : pair.declaration = other.declaration

namespace Symbol

/-- Symbols that differ at most in the order of the platforms inside their declarations. -/
structure Reorders (symbol other : Symbol) : Prop where
  reference : symbol.reference = other.reference
  preciseIdentifier : symbol.preciseIdentifier = other.preciseIdentifier
  title : symbol.title = other.title
  sourceLanguage : symbol.sourceLanguage = other.sourceLanguage
  declarationVariants : List.Forall₂
    (fun entry changed => entry.1 = changed.1
      ∧ List.Forall₂ PlatformDeclaration.Reorders entry.2 changed.2)
    symbol.declarationVariants.entries other.declarationVariants.entries
  overloadsVariants : symbol.overloadsVariants = other.overloadsVariants

namespace Reorders

variable {symbol other : Symbol} (same : symbol.Reorders other)

include same

theorem traits : symbol.traits = other.traits := by
  have variants := same.declarationVariants
  unfold Symbol.traits
  generalize symbol.declarationVariants.entries = entries at variants ⊢
  generalize other.declarationVariants.entries = changed at variants ⊢
  induction variants with
  | nil => rfl
  | cons first _ ih => exact congrArg₂ List.cons first.1 ih

/-- For every trait there are the same declarations in the same order. -/
theorem declarations (trait : Trait) :
    List.Forall₂ PlatformDeclaration.Reorders (symbol.declarations trait)
      (other.declarations trait) := by
  have variants := same.declarationVariants
  unfold Symbol.declarations TraitMap.get? Catalog.find?
  generalize symbol.declarationVariants.entries = entries at variants ⊢
  generalize other.declarationVariants.entries = changed at variants ⊢
  induction variants with
  | nil => exact .nil
  | @cons entry entry' _ _ first _ ih =>
    have key : TraitMap.key entry = TraitMap.key entry' := first.1
    by_cases wanted : TraitMap.key entry' = trait
    · rw [List.find?_cons_of_pos (by simpa [key] using wanted),
        List.find?_cons_of_pos (by simpa using wanted)]
      exact first.2
    · rw [List.find?_cons_of_neg (by simpa [key] using wanted),
        List.find?_cons_of_neg (by simpa using wanted)]
      exact ih

theorem firstDeclaration? (trait : Trait) :
    symbol.firstDeclaration? trait = other.firstDeclaration? trait := by
  have pairs := same.declarations trait
  unfold Symbol.firstDeclaration?
  generalize symbol.declarations trait = list at pairs ⊢
  generalize other.declarations trait = changed at pairs ⊢
  cases pairs with
  | nil => rfl
  | cons first _ => exact congrArg some first.declaration

end Reorders

end Symbol

/-- Items that are alike in pairs give the same run of the whole list. -/
theorem Run.mapM_eq_of_forall₂ {α β : Type} {R : α → α → Prop} {item : α → Run β}
    {list other : List α} (alike : List.Forall₂ R list other)
    (same : ∀ a b, R a b → item a = item b) : list.mapM item = other.mapM item := by
  induction alike with
  | nil => rfl
  | cons first _ ih => rw [List.mapM_cons, List.mapM_cons, same _ _ first, ih]

namespace Context

/-- The same identifiers lead to the same places, and the entities differ at most in the order of
the platforms inside the declarations of symbols. -/
structure Reorders (context other : Context) : Prop where
  resolve? : context.resolve? = other.resolve?
  config : context.config = other.config
  entity : ∀ reference, context.entity reference = other.entity reference
    ∨ ∃ sibling changed, context.entity reference = .ok (.symbol sibling)
      ∧ other.entity reference = .ok (.symbol changed) ∧ sibling.Reorders changed

theorem Reorders.refl (context : Context) : context.Reorders context :=
  ⟨rfl, rfl, fun _ => .inl rfl⟩

/-! ## One context, two symbols -/

theorem shownPair_of_reorders (context : Context) {pair other : PlatformDeclaration}
    (same : pair.Reorders other) : context.shownPair pair = context.shownPair other := by
  unfold shownPair
  rw [same.declaration, Platform.arranged_eq_of_perm same.platforms]

theorem entries_of_reorders (context : Context) {symbol other : Symbol}
    (same : symbol.Reorders other) (trait : Trait) :
    context.entries symbol trait = context.entries other trait := by
  have pairs := same.declarations trait
  have shown : (symbol.declarations trait).mapM context.shownPair
      = (other.declarations trait).mapM context.shownPair :=
    Run.mapM_eq_of_forall₂ pairs fun _ _ => context.shownPair_of_reorders
  have blank : (symbol.declarations trait).isEmpty = (other.declarations trait).isEmpty := by
    rw [Bool.eq_iff_iff, List.isEmpty_iff_length_eq_zero, List.isEmpty_iff_length_eq_zero,
      pairs.length_eq]
  have siblings : symbol.overloads? trait = other.overloads? trait := by
    unfold Symbol.overloads?
    rw [same.overloadsVariants]
  have language : symbol.languageId trait = other.languageId trait := by
    unfold Symbol.languageId
    rw [same.sourceLanguage]
  unfold entries
  dsimp only
  rw [blank, shown, siblings, language]

theorem section?_of_reorders (context : Context) {symbol other : Symbol}
    (same : symbol.Reorders other) : context.section? symbol = context.section? other := by
  have traits : context.traitSection? symbol = context.traitSection? other := by
    funext trait
    unfold traitSection?
    rw [context.entries_of_reorders same]
  have listed : symbol.declarationVariants.entries.map TraitMap.key
      = other.declarationVariants.entries.map TraitMap.key := same.traits
  unfold section? traitSections
  rw [traits, listed, same.reference]

/-! ## Two contexts, one symbol -/

theorem row?_of_reorders {context other : Context} (same : context.Reorders other) (trait : Trait)
    (reference : Reference) : context.row? trait reference = other.row? trait reference := by
  have tokens : context.tokens = other.tokens :=
    funext fun fragments => tokens_congr fun fragment _ identifier _ =>
      congrFun same.resolve? identifier
  have flag : context.flagMissing = other.flagMissing := by
    funext reference trait
    unfold flagMissing
    rw [same.config]
  unfold row?
  rw [tokens, flag]
  rcases same.entity reference with alike | ⟨sibling, changed, here, there, reordered⟩
  · rw [alike]
  · rw [here, there]
    dsimp only
    rw [reordered.firstDeclaration?]

/-- The platforms of a declaration are arranged without a read beyond the ends of the list. The
arrangement has the platforms that were given, the unspecified ones first and the named ones after
them by the bytes of their names; it is what sorting by a total order gives, and it is the same for
every order in which the platforms are listed. Therefore the platforms inside the declarations of a
symbol, and of the entities that rendering looks up, may be listed in any order: the run is the same
at every level, with its result, its reports and its events. -/
theorem platform_order_is_immaterial :
    (∀ platforms : List (Option Platform),
      Platform.arrangeInPlace? platforms = some (Platform.arranged platforms)
      ∧ (Platform.arranged platforms).Perm platforms
      ∧ (∃ named : List Platform, named.Perm (platforms.filterMap id)
        ∧ named.Pairwise (fun left right => Text.bytes left.name ≤ Text.bytes right.name)
        ∧ Platform.arranged platforms
          = List.replicate (platforms.count none) none ++ named.map some)
      ∧ Platform.arranged platforms
        = platforms.mergeSort (fun left right => decide (Platform.ComesNoLater left right))
      ∧ Platform.arranged (Platform.arranged platforms) = Platform.arranged platforms
      ∧ ∀ shuffled, platforms.Perm shuffled →
        Platform.arranged platforms = Platform.arranged shuffled)
    ∧ ∀ (context other : Context) (symbol changed : Symbol), context.Reorders other →
      symbol.Reorders changed → context.section? symbol = other.section? changed := by
  refine ⟨fun platforms => ?arrangement, fun context other symbol changed contexts symbols => ?run⟩
  case arrangement =>
    refine ⟨Platform.arrangeInPlace?_eq platforms, Platform.arranged_perm platforms, ?_,
      Platform.arranged_eq_mergeSort platforms, Platform.arranged_arranged platforms, ?_⟩
    · exact ⟨Platform.named platforms, Platform.named_perm platforms,
        Platform.named_pairwise platforms, Platform.arranged_eq_append platforms⟩
    · intro shuffled reordered
      exact Platform.arranged_eq_of_perm reordered
  case run =>
    calc context.section? symbol
      _ = context.section? changed := context.section?_of_reorders symbols
      _ = other.section? changed := by
        refine section?_congr (fun _ _ _ _ _ identifier _ => ?_) (fun trait reference _ => ?_)
        · exact congrFun contexts.resolve? identifier
        · exact row?_of_reorders contexts trait reference

/-- The function with its platforms the other way round. -/
def turned : Symbol :=
  swap.withDeclarations (.language "occ")
    [⟨[none, some .macOS], ⟨[.text "- swap:", .typeIdentifier "Int" "s:Si"]⟩⟩]

theorem swap_reorders_turned : swap.Reorders turned where
  reference := rfl
  preciseIdentifier := rfl
  title := rfl
  sourceLanguage := rfl
  declarationVariants := by
    refine .cons ⟨rfl, .cons ⟨.refl _, rfl⟩ .nil⟩ (.cons ⟨rfl, .nil⟩ (.cons ⟨rfl, ?_⟩ .nil))
    exact .cons ⟨List.Perm.swap _ _ _, rfl⟩ .nil
  overloadsVariants := rfl

/-- The function is listed as its own overload, so the look-ups find it turned too. -/
def turnedKit : Context :=
  let entity reference :=
    if reference = ⟨"doc://Kit/swap"⟩ then .ok (.symbol turned) else kit.entity reference
  { kit with entity }

theorem kit_reorders_turnedKit : kit.Reorders turnedKit where
  resolve? := rfl
  config := rfl
  entity := by
    intro reference
    by_cases itself : reference = ⟨"doc://Kit/swap"⟩
    · subst itself
      exact .inr ⟨swap, turned, rfl, rfl, swap_reorders_turned⟩
    · exact .inl (if_neg itself).symm

/-- Turning the platforms of the function round leaves its section alone. -/
theorem turned_platforms_are_immaterial :
    swap.Reorders turned ∧ kit.Reorders turnedKit
      ∧ kit.section? swap = turnedKit.section? turned
      ∧ [some Platform.macOS, none, some .iOS, none].Perm [none, some .iOS, none, some .macOS]
      ∧ Platform.arranged [some .macOS, none, some .iOS, none]
        = Platform.arranged [none, some .iOS, none, some .macOS] := by
  have shuffled : [some Platform.macOS, none, some .iOS, none].Perm
      [none, some .iOS, none, some .macOS] := by decide
  obtain ⟨arrangement, run⟩ := platform_order_is_immaterial
  obtain ⟨-, -, -, -, -, canonical⟩ := arrangement [some .macOS, none, some .iOS, none]
  exact ⟨swap_reorders_turned, kit_reorders_turnedKit,
    run _ _ _ _ kit_reorders_turnedKit swap_reorders_turned, shuffled, canonical _ shuffled⟩

end Context

end DeclarationDocs
