import Mathlib.Data.List.Basic
import DeclarationDocs.Proofs.Render.Levels

/-!
# Reports and links

Every link of a rendered section has been reported, in the order in which it is shown, and nothing
else has. The sibling block of a trait is shown in each of its entries but was rendered once, so its
links count once per trait, behind those of all the trait's own tokens.

The reports of a run can therefore be read off its result, which `TraitSection.links` does.
-/

namespace DeclarationDocs

/-- The references to which tokens link, in order and with repeats. -/
def LinkedToken.links (tokens : List LinkedToken) : List Reference :=
  tokens.filterMap LinkedToken.identifier

/-- The links of a block, row after row. -/
def SiblingBlock.links (block : SiblingBlock) : List Reference :=
  block.rows.flatMap fun row => LinkedToken.links row.tokens

/-- The links of a trait's section: those of the entries' own tokens, and then those of the sibling
block, which all entries share and the first one speaks for. -/
def TraitSection.links (shown : TraitSection) : List Reference :=
  shown.contents.entries.flatMap (fun entry => LinkedToken.links entry.tokens)
    ++ match shown.contents.entries.head?.bind Entry.siblings with
      | some block => block.links
      | none => []

/-! ## Runs that report nothing more -/

namespace Run

variable {α β : Type}

theorem reports_bind_of_silent {first : Run α} {next : α → Run β}
    (silent : ∀ value, (next value).reports = []) : (first >>= next).reports = first.reports := by
  unfold reports at silent ⊢
  rw [trace_bind, Trace.reports_append]
  cases first.outcome with
  | ok value => exact (congrArg (_ ++ ·) (silent value)).trans (List.append_nil _)
  | error fault => exact List.append_nil _

theorem reports_within (symbol : Reference) (work : Run α) :
    (work.within symbol).reports = work.reports := by
  show Trace.reports (work.trace ++ [.leave]) = _
  rw [Trace.reports_append]
  exact List.append_nil _

end Run

namespace Context

/-! ## The reports of a trace -/

theorem reports_fragmentTrace (context : Context) (fragment : Fragment) :
    Trace.reports (context.fragmentTrace fragment) = (context.target? fragment).toList := by
  unfold fragmentTrace target?
  cases fragment.preciseIdentifier with
  | none => rfl
  | some preciseIdentifier =>
    dsimp only [Option.bind_some]
    cases context.resolve? preciseIdentifier with
    | none => rfl
    | some reference => rfl

theorem reports_fragments (context : Context) (fragments : List Fragment) :
    Trace.reports (fragments.flatMap context.fragmentTrace)
      = LinkedToken.links (fragments.map context.shownFragment) := by
  unfold LinkedToken.links
  rw [Trace.reports_flatMap, List.filterMap_map, List.filterMap_eq_flatMap_toList]
  exact List.flatMap_congr fun fragment _ => reports_fragmentTrace context fragment

/-- A listed overload reports the links of its row, and nothing when it has none. -/
theorem reports_rowTrace (context : Context) (trait : Trait) (reference : Reference) :
    Trace.reports (context.rowTrace trait reference)
      = (context.shownRow? trait reference).toList.flatMap fun row =>
          LinkedToken.links row.tokens := by
  unfold rowTrace shownRow? siblingDeclaration?
  cases context.entity reference with
  | error error => rfl
  | ok node =>
    cases node with
    | article page => rfl
    | symbol sibling =>
      dsimp only
      cases sibling.firstDeclaration? trait with
      | none =>
        dsimp only
        unfold missingTrace
        split <;> rfl
      | some declaration =>
        dsimp only
        rw [reports_fragments, Option.map_some, Option.toList_some, List.flatMap_singleton]

theorem reports_blockTrace (context : Context) (trait : Trait) (group : OverloadGroup) :
    Trace.reports (context.blockTrace trait (some group))
      = (context.shownBlock trait group).links := by
  unfold blockTrace SiblingBlock.links shownBlock
  rw [Trace.reports_flatMap, List.filterMap_eq_flatMap_toList, List.flatMap_assoc]
  exact List.flatMap_congr fun reference _ => reports_rowTrace context trait reference

/-- A trait reports the links of its section, and nothing when it has none. -/
theorem reports_traitTrace (context : Context) (symbol : Symbol) (trait : Trait) :
    Trace.reports (context.traitTrace symbol trait)
      = (context.shownTrait? symbol trait).toList.flatMap TraitSection.links := by
  unfold traitTrace shownTrait?
  cases symbol.declarations trait with
  | nil => rfl
  | cons pair rest =>
    rw [if_neg (by simp), if_neg (by simp), Trace.reports_append, Trace.reports_flatMap,
      Option.toList_some, List.flatMap_singleton]
    unfold TraitSection.links
    rw [List.flatMap_map]
    congr 1
    · exact List.flatMap_congr fun pair _ => reports_fragments context pair.declaration.fragments
    · rw [List.map_cons, List.head?_cons, Option.bind_some,
        show (context.shownEntry symbol trait pair).siblings
          = (symbol.overloads? trait).map (context.shownBlock trait) from rfl]
      cases symbol.overloads? trait with
      | none => rfl
      | some group => exact reports_blockTrace context trait group

theorem reports_traitsTrace (context : Context) (symbol : Symbol) :
    Trace.reports (context.traitsTrace symbol)
      = (context.shownTraits symbol).flatMap TraitSection.links := by
  unfold traitsTrace shownTraits
  rw [Trace.reports_flatMap, List.filterMap_eq_flatMap_toList, List.flatMap_assoc]
  exact List.flatMap_congr fun trait _ => reports_traitTrace context symbol trait

/-! ## Runs that have a result -/

/-- A context at the level `assert` traces what it traces at `warn`, as long as it gets that far. -/
theorem traitSections_eq_of_ok {context : Context} {symbol : Symbol} {sections : List TraitSection}
    (rendered : (context.traitSections symbol).outcome = .ok sections) :
    context.traitSections symbol
      = ⟨.ok (context.shownTraits symbol), context.traitsTrace symbol⟩ := by
  by_cases quiet : context.IsQuiet
  · exact traitSections_eq quiet symbol
  · obtain ⟨resolve?, entity, level, log⟩ := context
    obtain rfl : level = .assert := not_not.mp quiet
    have same := (traitSections_cutShort ⟨resolve?, entity, .assert, log⟩ symbol).eq_of_ok rendered
    exact same.trans (traitSections_eq (isQuiet_warn _) symbol)

/-- A section is made of the trait sections, and it ends with a fault when they do. -/
theorem outcome_section? (context : Context) (symbol : Symbol) :
    (context.section? symbol).outcome = (context.traitSections symbol).outcome.map fun sections =>
      if sections.isEmpty then none else some ⟨sections.flatMap (·.contents.entries)⟩ := by
  unfold section?
  show (_ >>= _ : Run (Option Section)).outcome = _
  rw [Run.outcome_bind]
  cases (context.traitSections symbol).outcome with
  | error fault => rfl
  | ok sections =>
    show Run.outcome (if _ then _ else _) = .ok (if _ then _ else _)
    split <;> rfl

/-- What a section reports is what its traits report, whether or not there is a section. -/
theorem reports_section?_eq (context : Context) (symbol : Symbol) :
    (context.section? symbol).reports = (context.traitSections symbol).reports := by
  unfold section?
  refine (Run.reports_within symbol.reference _).trans (Run.reports_bind_of_silent fun sections => ?_)
  split <;> rfl

theorem siblings_eq_of_mem {context : Context} {symbol : Symbol} {shown : TraitSection}
    (member : shown ∈ context.shownTraits symbol) {entry : Entry}
    (inside : entry ∈ shown.contents.entries) :
    entry.siblings = (symbol.overloads? shown.trait).map (context.shownBlock shown.trait) := by
  obtain ⟨trait, -, found⟩ := List.mem_filterMap.mp member
  unfold shownTrait? at found
  split at found
  · cases found
  · obtain rfl := Option.some.inj found
    obtain ⟨pair, -, rfl⟩ := List.mem_map.mp inside
    rfl

/-- What a symbol reports can be read off its trait sections: the links of the entries' own tokens
and, once per trait, those of the sibling block. Reports come behind those that were there before, a
symbol without a section makes none, and a fault of the trait sections is one of the section. -/
theorem reports_are_links (context : Context) (symbol : Symbol) :
    match (context.traitSections symbol).outcome with
    | .error fault => (context.section? symbol).outcome = .error fault
    | .ok sections =>
      (context.section? symbol).outcome
          = .ok (if sections.isEmpty then none else some ⟨sections.flatMap (·.contents.entries)⟩)
        ∧ (∀ shown ∈ sections, ∀ one ∈ shown.contents.entries, ∀ other ∈ shown.contents.entries,
            one.siblings = other.siblings)
        ∧ (∀ collector : Collector,
            (collector.collect (context.traitSections symbol)).references
                = collector.references ++ sections.flatMap TraitSection.links
              ∧ (collector.collect (context.section? symbol)).references
                = collector.references ++ sections.flatMap TraitSection.links)
        ∧ ((context.section? symbol).outcome = .ok none →
            sections.flatMap TraitSection.links = []) := by
  rw [outcome_section?]
  cases rendered : (context.traitSections symbol).outcome with
  | error fault => rfl
  | ok sections =>
    have run := traitSections_eq_of_ok rendered
    obtain rfl : sections = context.shownTraits symbol := by
      rw [run] at rendered
      exact (Except.ok.inj rendered).symm
    have reports : (context.traitSections symbol).reports
        = (context.shownTraits symbol).flatMap TraitSection.links := by
      unfold Run.reports
      rw [run, reports_traitsTrace]
    refine ⟨rfl, ?_, fun collector => ⟨?_, ?_⟩, ?_⟩
    · intro shown member one first other second
      rw [siblings_eq_of_mem member first, siblings_eq_of_mem member second]
    · rw [Collector.references_collect, reports]
    · rw [Collector.references_collect, reports_section?_eq, reports]
    · show Except.ok (if _ then _ else _) = _ → _
      split
      next blank =>
        rw [List.isEmpty_iff.mp blank]
        exact fun _ => rfl
      next => exact fun missing => nomatch Except.ok.inj missing

end Context

end DeclarationDocs
