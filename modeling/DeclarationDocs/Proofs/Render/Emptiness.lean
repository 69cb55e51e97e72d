import DeclarationDocs.Proofs.Render.BuiltSymbols
import DeclarationDocs.Proofs.Render.Reports

/-!
# Sections without fragments

Whether a symbol has a section is decided by its platform declarations and not by their fragments. A
declaration without fragments has its entry, in which no token is the symbol's own; what such a
symbol reports are the links of its sibling blocks.

Main statement: `Context.section?_follows_declarations`.
-/

namespace DeclarationDocs

namespace Symbol

/-- Some declaration of the symbol has a fragment. -/
def HasFragments (symbol : Symbol) : Prop :=
  ∃ trait, ∃ pair ∈ symbol.declarations trait, pair.declaration.fragments ≠ []

theorem mem_declared_iff {symbol : Symbol} {trait : Trait} {pair : PlatformDeclaration} :
    (trait, pair) ∈ symbol.declared ↔ pair ∈ symbol.declarations trait := by
  constructor
  · exact mem_declarations_of_mem_declared
  · intro listed
    have member : (trait, pair) ∈ symbol.declared.filter (·.1 = trait) := by
      rw [filter_declared]
      exact List.mem_map_of_mem listed
    exact (List.mem_filter.mp member).1

theorem declared_eq_nil_iff (symbol : Symbol) :
    symbol.declared = [] ↔ ∀ trait, symbol.declarations trait = [] := by
  simp only [List.eq_nil_iff_forall_not_mem]
  constructor
  · intro none trait pair listed
    exact none (trait, pair) (mem_declared_iff.mpr listed)
  · rintro none ⟨trait, pair⟩ listed
    exact none trait pair (mem_declared_iff.mp listed)

theorem hasFragments_iff (symbol : Symbol) :
    symbol.HasFragments ↔ ∃ shown ∈ symbol.declared, shown.2.declaration.fragments ≠ [] := by
  constructor
  · rintro ⟨trait, pair, listed, present⟩
    exact ⟨(trait, pair), mem_declared_iff.mpr listed, present⟩
  · rintro ⟨⟨trait, pair⟩, listed, present⟩
    exact ⟨trait, pair, mem_declared_iff.mp listed, present⟩

end Symbol

namespace Context

/-! ## Own tokens -/

/-- The own tokens of an entry are the fragments of the declaration, one by one. -/
def ShowsFragments (shown : Trait × PlatformDeclaration) (entry : Entry) : Prop :=
  entry.tokens.map (fun token => (token.kind, token.text))
    = shown.2.declaration.fragments.map fun fragment => (fragment.kind, fragment.spelling)

theorem showsFragments_of_isEntryOf {context : Context} {symbol : Symbol}
    {shown : Trait × PlatformDeclaration} {entry : Entry}
    (law : context.IsEntryOf symbol shown entry) : ShowsFragments shown entry := by
  have rendered := law.tokens
  rw [tokens_eq] at rendered
  have tokens : entry.tokens = shown.2.declaration.fragments.map context.shownFragment :=
    (Except.ok.inj rendered).symm
  unfold ShowsFragments
  rw [tokens, List.map_map]
  rfl

/-- An entry has own tokens exactly when its declaration has fragments. -/
theorem ShowsFragments.tokens_eq_nil_iff {shown : Trait × PlatformDeclaration} {entry : Entry}
    (law : ShowsFragments shown entry) :
    entry.tokens = [] ↔ shown.2.declaration.fragments = [] := by
  rw [← List.map_eq_nil_iff (f := fun token : LinkedToken => (token.kind, token.text)), law,
    List.map_eq_nil_iff]

/-- Some entry has an own token exactly when some declaration has a fragment. -/
theorem exists_token_iff {declared : List (Trait × PlatformDeclaration)} {entries : List Entry}
    (each : List.Forall₂ ShowsFragments declared entries) :
    (∃ entry ∈ entries, entry.tokens ≠ [])
      ↔ ∃ shown ∈ declared, shown.2.declaration.fragments ≠ [] := by
  induction each with
  | nil => simp
  | cons first _ ih =>
    rw [List.exists_mem_cons_iff, List.exists_mem_cons_iff, ih, ne_eq, first.tokens_eq_nil_iff]

/-! ## Reports without own tokens -/

/-- A symbol without fragments reports what its sibling blocks report, trait after trait. -/
theorem reports_section?_of_blank {context : Context} (quiet : context.IsQuiet) {symbol : Symbol}
    (blank : ¬ symbol.HasFragments) :
    (context.section? symbol).reports = symbol.traits.flatMap fun trait =>
      if symbol.declarations trait = [] then []
      else (context.block? trait (symbol.overloads? trait)).reports := by
  rw [reports_section?_eq]
  unfold Run.reports
  rw [traitSections_eq quiet]
  unfold traitsTrace
  rw [Trace.reports_flatMap]
  refine List.flatMap_congr fun trait _ => ?_
  unfold traitTrace
  simp only [List.isEmpty_iff]
  by_cases undeclared : symbol.declarations trait = []
  · rw [if_pos undeclared, if_pos undeclared]
    rfl
  · -- the trait's own declarations have nothing to report
    have own : (symbol.declarations trait).flatMap context.pairTrace = [] := by
      refine List.flatMap_eq_nil_iff.mpr fun pair listed => ?_
      have none : pair.declaration.fragments = [] := by
        by_contra present
        exact blank ⟨trait, pair, listed, present⟩
      unfold pairTrace
      rw [none]
      rfl
    rw [if_neg undeclared, if_neg undeclared, own, List.nil_append, block?_eq quiet]

/-- A symbol without fragments reports nothing when it is in no group of overloads either. -/
theorem reports_section?_of_blank_alone {context : Context} (quiet : context.IsQuiet)
    {symbol : Symbol} (blank : ¬ symbol.HasFragments)
    (alone : ∀ trait, symbol.declarations trait ≠ [] → symbol.overloads? trait = none) :
    (context.section? symbol).reports = [] := by
  rw [reports_section?_of_blank quiet blank]
  refine List.flatMap_eq_nil_iff.mpr fun trait _ => ?_
  by_cases undeclared : symbol.declarations trait = []
  · exact if_pos undeclared
  · rw [if_neg undeclared, alone trait undeclared]
    rfl

/-- A quiet context leaves out the section of a symbol exactly when no trait has a declaration, and
then nothing is reported. Any other section has an entry for each declaration, whose own tokens are
the declaration's fragments, so it has an own token exactly when the symbol has a fragment. Without
one, what is reported comes from the sibling blocks of the traits that have declarations. -/
theorem section?_follows_declarations {context : Context} (quiet : context.IsQuiet)
    (symbol : Symbol) :
    ∃ shown : Option Section, (context.section? symbol).outcome = .ok shown
      ∧ (shown = none ↔ ∀ trait, symbol.declarations trait = [])
      ∧ (shown = none → (context.section? symbol).reports = [])
      ∧ (∀ contents, shown = some contents →
          contents.entries ≠ []
            ∧ List.Forall₂ ShowsFragments symbol.declared contents.entries
            ∧ ((∃ entry ∈ contents.entries, entry.tokens ≠ []) ↔ symbol.HasFragments))
      ∧ (¬ symbol.HasFragments →
          (context.section? symbol).reports = symbol.traits.flatMap fun trait =>
            if symbol.declarations trait = [] then []
            else (context.block? trait (symbol.overloads? trait)).reports)
      ∧ (¬ symbol.HasFragments →
          (∀ trait, symbol.declarations trait ≠ [] → symbol.overloads? trait = none) →
            (context.section? symbol).reports = []) := by
  obtain ⟨entries, each, rendered⟩ := section?_eq_entries quiet symbol
  refine ⟨_, rendered, ?_, ?_, ?_, reports_section?_of_blank quiet,
    reports_section?_of_blank_alone quiet⟩
  · rw [← symbol.declared_eq_nil_iff]
    simp
  · intro missing
    have undeclared : ∀ trait, symbol.declarations trait = [] :=
      symbol.declared_eq_nil_iff.mp (by simpa using missing)
    have blank : ¬ symbol.HasFragments := by
      rintro ⟨trait, pair, listed, -⟩
      rw [undeclared trait] at listed
      cases listed
    exact reports_section?_of_blank_alone quiet blank fun trait declared =>
      absurd (undeclared trait) declared
  · intro contents present
    have declared : symbol.declared ≠ [] := by
      intro none
      rw [if_pos none] at present
      cases present
    rw [if_neg declared] at present
    obtain rfl := Option.some.inj present
    have shows : List.Forall₂ ShowsFragments symbol.declared entries :=
      each.imp fun _ _ => showsFragments_of_isEntryOf
    refine ⟨?_, shows, ?_⟩
    · rintro rfl
      exact declared (List.forall₂_nil_right_iff.mp each)
    · rw [exists_token_iff shows, symbol.hasFragments_iff]

/-! ### A declaration without fragments -/

/-- A symbol whose one declaration has no fragments, in a group with the function. -/
def placeholder : Symbol :=
  ((Symbol.bare ⟨"doc://Kit/placeholder"⟩ .swift).withDeclaration (.language "occ")
      ⟨[some .macOS], .empty⟩).withOverloads (.language "occ") ⟨[⟨"doc://Kit/swap"⟩], 1⟩

theorem placeholder_blank : ¬ placeholder.HasFragments := by
  rw [Symbol.hasFragments_iff,
    show placeholder.declared = [(.language "occ", ⟨[some .macOS], .empty⟩)] from rfl]
  simp [Declaration.empty]

/-- The symbol has no fragments, and still it has a section, which reports a link. -/
theorem placeholder_is_shown :
    kit.IsQuiet ∧ ¬ placeholder.HasFragments
      ∧ (kit.section? placeholder).outcome = .ok (some ⟨[⟨["occ"], [some .macOS], [],
          some ⟨[⟨⟨"doc://Kit/swap"⟩, [⟨.text, "- swap:", none⟩,
            ⟨.typeIdentifier, "Int", some ⟨"doc://Swift/Int"⟩⟩]⟩], 1⟩⟩]⟩)
      ∧ (kit.section? placeholder).reports = [⟨"doc://Swift/Int"⟩]
      ∧ ¬ ∀ (context : Context) (symbol : Symbol), context.IsQuiet → ¬ symbol.HasFragments →
          (context.section? symbol).outcome = .ok none
            ∧ (context.section? symbol).reports = [] := by
  have quiet : kit.IsQuiet := nofun
  refine ⟨quiet, placeholder_blank, rfl, rfl, fun claimed => ?_⟩
  have nothing : (kit.section? placeholder).reports = [] :=
    (claimed kit placeholder quiet placeholder_blank).2
  exact absurd nothing (by decide)

/-- The section of the symbol has entries without own tokens, and the block of the one trait makes
all reports. -/
theorem placeholder_follows_declarations :
    kit.IsQuiet ∧ ∃ contents, (kit.section? placeholder).outcome = .ok (some contents)
      ∧ contents.entries ≠ [] ∧ (∀ entry ∈ contents.entries, entry.tokens = [])
      ∧ (kit.section? placeholder).reports
        = (kit.block? (.language "occ") (placeholder.overloads? (.language "occ"))).reports := by
  have quiet : kit.IsQuiet := nofun
  obtain ⟨shown, rendered, -, -, contents?, reports, -⟩ :=
    Context.section?_follows_declarations quiet placeholder
  obtain ⟨contents, rfl⟩ : ∃ contents, shown = some contents := ⟨_, (Except.ok.inj rendered).symm⟩
  obtain ⟨shownEntries, -, own⟩ := contents? contents rfl
  refine ⟨quiet, contents, rendered, shownEntries, ?_, ?_⟩
  · intro entry member
    by_contra token
    exact placeholder_blank (own.mp ⟨entry, member, token⟩)
  · rw [reports placeholder_blank]
    rfl

end Context

end DeclarationDocs
