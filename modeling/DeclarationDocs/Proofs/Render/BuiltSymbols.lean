import Mathlib.Data.List.Forall2
import Mathlib.Data.List.Induction
import DeclarationDocs.Proofs.Render.Layout

/-!
# Symbols built call by call

A symbol is built by calls that add a declaration to a trait or set the overload group of one, in
any order. Each call leaves the other traits alone, so a trait holds the declarations that were added
to it, in the order of the calls, and the group that was set for it last. The section then shows the
calls that added a declaration, sorted by trait, and the calls of one trait stay in their order.

Main statement: `Context.built_entries_group_by_trait`.
-/

namespace DeclarationDocs

namespace Symbol

/-- A call in the building of a symbol. -/
inductive BuildCall where
  | declaration (trait : Trait) (pair : PlatformDeclaration)
  | overloads (trait : Trait) (group : OverloadGroup)

namespace BuildCall

def apply (symbol : Symbol) : BuildCall → Symbol
  | .declaration trait pair => symbol.withDeclaration trait pair
  | .overloads trait group => symbol.withOverloads trait group

/-- The declaration that a call adds, with the trait to which it adds it. -/
def declared? : BuildCall → Option (Trait × PlatformDeclaration)
  | .declaration trait pair => some (trait, pair)
  | .overloads .. => none

/-- The group that a call sets for a trait. -/
def groupFor? (wanted : Trait) : BuildCall → Option OverloadGroup
  | .declaration .. => none
  | .overloads trait group => if trait = wanted then some group else none

end BuildCall

/-- The symbol after some calls on a new one. -/
def build (reference : Reference) (language : SourceLanguage) (calls : List BuildCall) : Symbol :=
  calls.foldl BuildCall.apply (bare reference language)

/-! ## What a call changes -/

theorem declarations_apply (symbol : Symbol) (call : BuildCall) (trait : Trait) :
    (call.apply symbol).declarations trait
      = symbol.declarations trait
        ++ (call.declared?.toList.filter (·.1 = trait)).map Prod.snd := by
  cases call with
  | overloads given group => exact (List.append_nil _).symm
  | declaration given pair =>
    rw [BuildCall.apply, declarations_withDeclaration]
    by_cases same : given = trait <;> simp [BuildCall.declared?, same]

theorem overloads?_apply (symbol : Symbol) (call : BuildCall) (trait : Trait) :
    (call.apply symbol).overloads? trait = (call.groupFor? trait).or (symbol.overloads? trait) := by
  cases call with
  | declaration given pair => rfl
  | overloads given group =>
    show TraitMap.get? (symbol.overloadsVariants.put given group) trait = _
    rw [TraitMap.get?_put, BuildCall.groupFor?]
    by_cases same : given = trait
    · rw [if_pos same, if_pos same]
      rfl
    · rw [if_neg same, if_neg same]
      rfl

theorem sourceLanguage_apply (symbol : Symbol) (call : BuildCall) :
    (call.apply symbol).sourceLanguage = symbol.sourceLanguage := by
  cases call <;> rfl

section

variable (reference : Reference) (language : SourceLanguage) (calls : List BuildCall)

theorem build_append_singleton (call : BuildCall) :
    build reference language (calls ++ [call]) = call.apply (build reference language calls) := by
  unfold build
  rw [List.foldl_append]
  rfl

theorem declarations_build (trait : Trait) :
    (build reference language calls).declarations trait
      = ((calls.filterMap BuildCall.declared?).filter (·.1 = trait)).map Prod.snd := by
  induction calls using List.reverseRecOn with
  | nil => rfl
  | append_singleton calls call ih =>
    rw [build_append_singleton, declarations_apply, ih, List.filterMap_append, List.filter_append,
      List.map_append]
    cases call <;> rfl

theorem overloads?_build (trait : Trait) :
    (build reference language calls).overloads? trait
      = (calls.filterMap (BuildCall.groupFor? trait)).getLast? := by
  induction calls using List.reverseRecOn with
  | nil => rfl
  | append_singleton calls call ih =>
    rw [build_append_singleton, overloads?_apply, ih, List.filterMap_append, List.getLast?_append]
    cases set : call.groupFor? trait <;> simp [set]

theorem sourceLanguage_build : (build reference language calls).sourceLanguage = language := by
  induction calls using List.reverseRecOn with
  | nil => rfl
  | append_singleton calls call ih => rw [build_append_singleton, sourceLanguage_apply, ih]

end

/-! ## The declarations of all traits -/

/-- Of all that a symbol declares, a trait has what is stored for it. -/
theorem filter_declared (symbol : Symbol) (trait : Trait) :
    symbol.declared.filter (·.1 = trait) = (symbol.declarations trait).map (trait, ·) := by
  obtain ⟨reference, identifier, title, language, ⟨entries, ascending⟩, overloads⟩ := symbol
  unfold declared declarations TraitMap.get? Catalog.find?
  dsimp only
  rw [List.filter_flatMap]
  induction entries with
  | nil => rfl
  | cons entry rest ih =>
    obtain ⟨first, others⟩ := List.pairwise_cons.mp ascending
    rw [List.flatMap_cons]
    by_cases here : entry.1 = trait
    · -- a later entry has a later trait
      have none : (rest.flatMap fun other => (other.2.map (other.1, ·)).filter (·.1 = trait))
          = [] := by
        refine List.flatMap_eq_nil_iff.mpr fun other member => List.filter_eq_nil_iff.mpr ?_
        rintro shown listed
        obtain ⟨pair, -, rfl⟩ := List.mem_map.mp listed
        simpa using fun same : other.1 = trait =>
          KeyOrder.ne_of_lt (first other member) (here.trans same.symm)
      subst here
      simp only [none]
      simp
    · rw [List.find?_cons_of_neg (by simpa using here), ← ih others]
      simp [here]

theorem declared_ascending (symbol : Symbol) :
    symbol.declared.Pairwise fun one other => one.1 = other.1 ∨ one.1.ComesBefore other.1 := by
  refine List.pairwise_flatMap.mpr ⟨fun entry _ => ?_, ?_⟩
  · exact List.pairwise_map.mpr (List.pairwise_of_forall fun _ _ => .inl rfl)
  · refine symbol.declarationVariants.ascending.imp fun less => ?_
    intro one first other second
    obtain ⟨_, -, rfl⟩ := List.mem_map.mp first
    obtain ⟨_, -, rfl⟩ := List.mem_map.mp second
    exact .inr (Trait.comesBefore_of_lt less)

theorem hasDeclarations_iff (symbol : Symbol) :
    symbol.hasDeclarations = true ↔ symbol.declared ≠ [] := by
  unfold hasDeclarations declared
  rw [List.any_eq_true, ne_eq, List.flatMap_eq_nil_iff]
  simp

/-- The declarations of a list in the order of their traits: every one is there as often as before,
and those of one trait are in the order in which they were. -/
structure SortsByTrait (added sorted : List (Trait × PlatformDeclaration)) : Prop where
  perm : sorted.Perm added
  ascending : sorted.Pairwise fun one other => one.1 = other.1 ∨ one.1.ComesBefore other.1
  stable : ∀ trait, sorted.filter (·.1 = trait) = added.filter (·.1 = trait)

/-- Lists with the same entries for each trait have the same entries. -/
theorem perm_of_filter_eq {one other : List (Trait × PlatformDeclaration)}
    (same : ∀ trait, one.filter (·.1 = trait) = other.filter (·.1 = trait)) : one.Perm other := by
  refine List.perm_iff_count.mpr fun shown => ?_
  have counted : ∀ list : List (Trait × PlatformDeclaration),
      (list.filter (·.1 = shown.1)).count shown = list.count shown :=
    fun list => List.count_filter (by simp)
  rw [← counted one, ← counted other, same]

theorem sortsByTrait_build (reference : Reference) (language : SourceLanguage)
    (calls : List BuildCall) :
    SortsByTrait (calls.filterMap BuildCall.declared?)
      (build reference language calls).declared := by
  have stable : ∀ trait, (build reference language calls).declared.filter (·.1 = trait)
      = (calls.filterMap BuildCall.declared?).filter (·.1 = trait) := by
    intro trait
    rw [filter_declared, declarations_build, List.map_map]
    refine (List.map_congr_left fun shown listed => ?_).trans (List.map_id _)
    have here : shown.1 = trait := of_decide_eq_true (List.mem_filter.mp listed).2
    exact here ▸ rfl
  exact ⟨perm_of_filter_eq stable, declared_ascending _, stable⟩

end Symbol

namespace Context

/-- The entry of a declaration: the language in which the trait presents the symbol, the
declaration's platforms in display order, its fragments with their links, and the block of the
trait's overload group. -/
structure IsEntryOf (context : Context) (symbol : Symbol) (shown : Trait × PlatformDeclaration)
    (entry : Entry) : Prop where
  languages : entry.languages = [shown.1.interfaceLanguage?.getD symbol.sourceLanguage.id]
  platforms : entry.platforms = Platform.arranged shown.2.platforms
  tokens : (context.tokens shown.2.declaration.fragments).outcome = .ok entry.tokens
  siblings : (context.block? shown.1 (symbol.overloads? shown.1)).outcome = .ok entry.siblings

theorem isEntryOf_shownEntry {context : Context} (quiet : context.IsQuiet) (symbol : Symbol)
    (trait : Trait) (pair : PlatformDeclaration) :
    context.IsEntryOf symbol (trait, pair) (context.shownEntry symbol trait pair) where
  languages := rfl
  platforms := rfl
  tokens := by rw [tokens_eq]; rfl
  siblings := by rw [block?_eq quiet]; rfl

/-- A section has an entry for each declaration of its symbol, in their order. -/
theorem section?_eq_entries {context : Context} (quiet : context.IsQuiet) (symbol : Symbol) :
    ∃ entries, List.Forall₂ (context.IsEntryOf symbol) symbol.declared entries
      ∧ (context.section? symbol).outcome
        = .ok (if symbol.declared = [] then none else some ⟨entries⟩) := by
  refine ⟨_, List.forall₂_map_right_iff.mpr (List.forall₂_same.mpr fun shown _ =>
    isEntryOf_shownEntry quiet symbol shown.1 shown.2), ?_⟩
  rw [section?_eq quiet, shownSection?, entries_eq_map_declared]
  by_cases declared : symbol.declared = []
  · rw [if_pos declared, if_neg fun present => (symbol.hasDeclarations_iff.mp present) declared]
  · rw [if_neg declared, if_pos (symbol.hasDeclarations_iff.mpr declared)]

/-- However the calls that build a symbol are interleaved, a trait has the declarations that were
added to it, in the order of the calls, and the group that was set for it last, and the symbol has
declarations exactly when one was added. A quiet context shows an entry for each call that added a
declaration, and no other: the calls sorted by trait, those of one trait in their order. -/
theorem built_entries_group_by_trait {context : Context} (quiet : context.IsQuiet)
    (reference : Reference) (language : SourceLanguage) (calls : List Symbol.BuildCall) :
    let symbol := Symbol.build reference language calls
    let added := calls.filterMap Symbol.BuildCall.declared?
    symbol.sourceLanguage = language
      ∧ (∀ trait, symbol.declarations trait = (added.filter (·.1 = trait)).map Prod.snd)
      ∧ (∀ trait, symbol.overloads? trait
          = (calls.filterMap (Symbol.BuildCall.groupFor? trait)).getLast?)
      ∧ (symbol.hasDeclarations = true
          ↔ ∃ trait pair, Symbol.BuildCall.declaration trait pair ∈ calls)
      ∧ ∃ sorted entries, Symbol.SortsByTrait added sorted
        ∧ List.Forall₂ (context.IsEntryOf symbol) sorted entries
        ∧ (context.section? symbol).outcome
          = .ok (if added = [] then none else some ⟨entries⟩) := by
  intro symbol added
  have sorts : Symbol.SortsByTrait added symbol.declared :=
    Symbol.sortsByTrait_build reference language calls
  have blank : symbol.declared = [] ↔ added = [] := by
    rw [← List.length_eq_zero_iff, sorts.perm.length_eq, List.length_eq_zero_iff]
  obtain ⟨entries, each, rendered⟩ := section?_eq_entries quiet symbol
  refine ⟨Symbol.sourceLanguage_build reference language calls,
    Symbol.declarations_build reference language calls,
    Symbol.overloads?_build reference language calls, ?_, symbol.declared, entries, sorts, each, ?_⟩
  · rw [Symbol.hasDeclarations_iff, ne_eq, blank, List.filterMap_eq_nil_iff]
    constructor
    · intro some
      by_contra none
      refine some fun call member => ?_
      cases call with
      | overloads trait group => rfl
      | declaration trait pair => exact absurd ⟨trait, pair, member⟩ none
    · rintro ⟨trait, pair, member⟩ none
      cases none _ member
  · rw [rendered]
    simp only [blank]

/-! ### Calls in two languages -/

/-- The calls of a function that is declared twice in one language and once in the other. -/
def interleaved : List Symbol.BuildCall :=
  [.declaration (.language "occ") ⟨[some .macOS], ⟨[.text "- first"]⟩⟩,
    .overloads .fallback ⟨[⟨"doc://Kit/swap"⟩], 0⟩,
    .declaration .fallback ⟨[], ⟨[.keyword "func"]⟩⟩,
    .declaration (.language "occ") ⟨[none], ⟨[.text "- second"]⟩⟩]

theorem interleaved_entries_group_by_trait :
    kit.IsQuiet
      ∧ ∃ sorted entries,
        Symbol.SortsByTrait (interleaved.filterMap Symbol.BuildCall.declared?) sorted
        ∧ List.Forall₂ (kit.IsEntryOf (Symbol.build ⟨"doc://Kit/f"⟩ .swift interleaved)) sorted
          entries
        ∧ (kit.section? (Symbol.build ⟨"doc://Kit/f"⟩ .swift interleaved)).outcome
          = .ok (some ⟨entries⟩) := by
  have quiet : kit.IsQuiet := nofun
  obtain ⟨-, -, -, -, sorted, entries, sorts, each, rendered⟩ :=
    built_entries_group_by_trait quiet ⟨"doc://Kit/f"⟩ .swift interleaved
  exact ⟨quiet, sorted, entries, sorts, each, rendered⟩

example : (Symbol.build ⟨"doc://Kit/f"⟩ .swift interleaved).declared
    = [(.fallback, ⟨[], ⟨[.keyword "func"]⟩⟩),
      (.language "occ", ⟨[some .macOS], ⟨[.text "- first"]⟩⟩),
      (.language "occ", ⟨[none], ⟨[.text "- second"]⟩⟩)] := by
  decide

end Context

end DeclarationDocs
