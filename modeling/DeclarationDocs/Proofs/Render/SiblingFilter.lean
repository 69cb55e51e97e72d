import Mathlib.Data.List.Forall2
import DeclarationDocs.Proofs.Render.Footprint
import DeclarationDocs.Proofs.Render.Reports

/-!
# Sibling blocks as filters

At the levels `ignore` and `warn` the block of an overload group is its list of references with some
left out: the others keep their order and their repeats, and each of them has one row. What is left
out leaves no trace in the collector, so the blocks and reports of two lists put together are those
of the one list, and a reference that would be left out may as well not be listed.

Main statement: `Context.block?_filters`.
-/

namespace DeclarationDocs.Context

/-- A listed overload has no row: it is unknown, or an article, or a symbol without a declaration for
the trait. -/
def Skips (context : Context) (trait : Trait) (reference : Reference) : Prop :=
  match context.entity reference with
  | .error _ => True
  | .ok (.article _) => True
  | .ok (.symbol sibling) => sibling.declarations trait = []

instance (context : Context) (trait : Trait) : DecidablePred (context.Skips trait) := by
  intro reference
  unfold Skips
  split <;> infer_instance

/-- The token of a fragment: its kind, its spelling, and the place to which its identifier leads. -/
def IsTokenOf (context : Context) (fragment : Fragment) (token : LinkedToken) : Prop :=
  token = ⟨fragment.kind, fragment.spelling, fragment.preciseIdentifier.bind context.resolve?⟩

/-- The row of a listed overload is named by the listed reference and has the tokens of the first
declaration that the symbol there has for the trait. -/
def IsRowOf (context : Context) (trait : Trait) (reference : Reference) (row : SiblingRow) : Prop :=
  row.identifier = reference
    ∧ ∃ sibling pair others, context.entity reference = .ok (.symbol sibling)
      ∧ sibling.declarations trait = pair :: others
      ∧ List.Forall₂ context.IsTokenOf pair.declaration.fragments row.tokens

/-- A list from which references without a row may have been deleted. -/
inductive Prunes (context : Context) (trait : Trait) : List Reference → List Reference → Prop where
  | nil : Prunes context trait [] []
  | keep (reference : Reference) {references fewer : List Reference}
      (rest : Prunes context trait references fewer) :
      Prunes context trait (reference :: references) (reference :: fewer)
  | delete {reference : Reference} {references fewer : List Reference}
      (skipped : context.Skips trait reference) (rest : Prunes context trait references fewer) :
      Prunes context trait (reference :: references) fewer

/-! ## Rows -/

variable {context : Context} {trait : Trait}

theorem shownRow?_eq_none_iff {reference : Reference} :
    context.shownRow? trait reference = none ↔ context.Skips trait reference := by
  unfold shownRow? siblingDeclaration? Skips
  rw [Option.map_eq_none_iff]
  cases context.entity reference with
  | error error => simp
  | ok node =>
    cases node with
    | article page => simp
    | symbol sibling => exact Symbol.firstDeclaration?_eq_none_iff

theorem isTokenOf_shownFragment (context : Context) (fragments : List Fragment) :
    List.Forall₂ context.IsTokenOf fragments (fragments.map context.shownFragment) :=
  List.forall₂_map_right_iff.mpr (List.forall₂_same.mpr fun _ _ => rfl)

theorem isRowOf_of_shownRow? {reference : Reference} {row : SiblingRow}
    (shown : context.shownRow? trait reference = some row) :
    context.IsRowOf trait reference row := by
  obtain ⟨declaration, found, rfl⟩ := Option.map_eq_some_iff.mp shown
  unfold siblingDeclaration? at found
  split at found
  next sibling here =>
    unfold Symbol.firstDeclaration? at found
    obtain ⟨pair, first, rfl⟩ := Option.map_eq_some_iff.mp found
    obtain ⟨others, pairs⟩ := List.head?_eq_some_iff.mp first
    exact ⟨rfl, sibling, pair, others, here, pairs, isTokenOf_shownFragment context _⟩
  next => cases found

/-- One row for each reference that is not left out, in their order. -/
theorem isRowOf_filterMap (references : List Reference) :
    List.Forall₂ (context.IsRowOf trait) (references.filter fun reference =>
        ¬ context.Skips trait reference)
      (references.filterMap (context.shownRow? trait)) := by
  induction references with
  | nil => exact .nil
  | cons reference rest ih =>
    cases shown : context.shownRow? trait reference with
    | none =>
      have skipped := shownRow?_eq_none_iff.mp shown
      rw [List.filterMap_cons_none shown, List.filter_cons_of_neg (by simpa using skipped)]
      exact ih
    | some row =>
      have kept : ¬ context.Skips trait reference := by
        intro skipped
        rw [shownRow?_eq_none_iff.mpr skipped] at shown
        cases shown
      rw [List.filterMap_cons_some shown, List.filter_cons_of_pos (by simpa using kept)]
      exact .cons (isRowOf_of_shownRow? shown) ih

theorem filterMap_of_prunes {references fewer : List Reference}
    (pruned : context.Prunes trait references fewer) :
    references.filterMap (context.shownRow? trait)
      = fewer.filterMap (context.shownRow? trait) := by
  induction pruned with
  | nil => rfl
  | keep reference _ ih => rw [List.filterMap_cons, List.filterMap_cons, ih]
  | delete skipped _ ih => rw [List.filterMap_cons_none (shownRow?_eq_none_iff.mpr skipped), ih]

/-! ## Blocks -/

variable (quiet : context.IsQuiet)

include quiet

theorem outcome_block? (group : OverloadGroup) :
    (context.block? trait (some group)).outcome = .ok (some
      ⟨group.references.filterMap (context.shownRow? trait), group.displayIndex⟩) :=
  congrArg Run.outcome (block?_eq quiet trait (some group))

theorem collect_block? (group : OverloadGroup) (collector : Collector) :
    collector.collect (context.block? trait (some group))
      = ⟨collector.references ++ (group.references.filterMap (context.shownRow? trait)).flatMap
          fun row => LinkedToken.links row.tokens⟩ := by
  have links : (context.block? trait (some group)).reports = (context.shownBlock trait group).links :=
    (congrArg Run.reports (block?_eq quiet trait (some group))).trans
      (reports_blockTrace context trait group)
  have grown := Collector.references_collect collector (context.block? trait (some group))
  rw [links] at grown
  exact congrArg Collector.mk grown

/-- The block of an overload group filters the listed references. Its index is the group's. It has
one row for each reference that is not left out, in the order of the list and with its repeats, and
the collector grows by the links of these rows. So the rows and reports of a list in two parts are
those of the first part and then those of the second, deleting references without a row changes
neither, and when all are left out there is still a block. Without a group there is none. -/
theorem block?_filters (trait : Trait) :
    (∀ group : OverloadGroup, ∃ rows : List SiblingRow,
      (context.block? trait (some group)).outcome = .ok (some ⟨rows, group.displayIndex⟩)
      ∧ List.Forall₂ (context.IsRowOf trait)
        (group.references.filter fun reference => ¬ context.Skips trait reference) rows
      ∧ ∀ collector : Collector,
        (collector.collect (context.block? trait (some group))).references
          = collector.references ++ rows.flatMap fun row =>
              row.tokens.filterMap LinkedToken.identifier)
    ∧ (∀ (first second : List Reference) (displayIndex : UInt64),
      ∃ firstRows secondRows : List SiblingRow,
        (context.block? trait (some ⟨first, displayIndex⟩)).outcome
            = .ok (some ⟨firstRows, displayIndex⟩)
        ∧ (context.block? trait (some ⟨second, displayIndex⟩)).outcome
            = .ok (some ⟨secondRows, displayIndex⟩)
        ∧ (context.block? trait (some ⟨first ++ second, displayIndex⟩)).outcome
            = .ok (some ⟨firstRows ++ secondRows, displayIndex⟩)
        ∧ ∀ collector : Collector,
          collector.collect (context.block? trait (some ⟨first ++ second, displayIndex⟩))
            = (collector.collect (context.block? trait (some ⟨first, displayIndex⟩))).collect
                (context.block? trait (some ⟨second, displayIndex⟩)))
    ∧ (∀ (references fewer : List Reference) (displayIndex : UInt64),
      context.Prunes trait references fewer →
        (context.block? trait (some ⟨references, displayIndex⟩)).outcome
            = (context.block? trait (some ⟨fewer, displayIndex⟩)).outcome
        ∧ ∀ collector : Collector,
          collector.collect (context.block? trait (some ⟨references, displayIndex⟩))
            = collector.collect (context.block? trait (some ⟨fewer, displayIndex⟩)))
    ∧ (∀ group : OverloadGroup, (∀ reference ∈ group.references, context.Skips trait reference) →
      (context.block? trait (some group)).outcome = .ok (some ⟨[], group.displayIndex⟩)
        ∧ ∀ collector : Collector,
          collector.collect (context.block? trait (some group)) = collector)
    ∧ (context.block? trait none).outcome = .ok none := by
  refine ⟨fun group => ?filter, fun first second displayIndex => ?concatenation,
    fun references fewer displayIndex pruned => ?deletion, fun group skipped => ?failure, rfl⟩
  case filter =>
    refine ⟨_, outcome_block? quiet group, isRowOf_filterMap group.references, ?_⟩
    intro collector
    rw [collect_block? quiet]
    rfl
  case concatenation =>
    refine ⟨_, _, outcome_block? quiet _, outcome_block? quiet _, ?_, ?_⟩
    · rw [outcome_block? quiet, List.filterMap_append]
    · intro collector
      rw [collect_block? quiet, collect_block? quiet, collect_block? quiet, List.filterMap_append,
        List.flatMap_append, List.append_assoc]
  case deletion =>
    have rows := filterMap_of_prunes pruned
    refine ⟨?_, fun collector => ?_⟩
    · rw [outcome_block? quiet, outcome_block? quiet, rows]
    · rw [collect_block? quiet, collect_block? quiet, rows]
  case failure =>
    have rows : group.references.filterMap (context.shownRow? trait) = [] :=
      List.filterMap_eq_nil_iff.mpr fun reference listed =>
        shownRow?_eq_none_iff.mpr (skipped reference listed)
    refine ⟨?_, fun collector => ?_⟩
    · rw [outcome_block? quiet, rows]
    · rw [collect_block? quiet, rows, List.flatMap_nil, List.append_nil]

omit quiet

/-- The function, listed twice between symbols without declarations and an unknown reference, at a
place far beyond the list. -/
theorem kit_block?_filters :
    kit.IsQuiet
      ∧ (∃ rows : List SiblingRow,
        (kit.block? (.language "occ") (some ⟨[⟨"doc://Kit/bare"⟩, ⟨"doc://Kit/swap"⟩,
            ⟨"doc://Kit/gone"⟩, ⟨"doc://Kit/swap"⟩], 18446744073709551615⟩)).outcome
          = .ok (some ⟨rows, 18446744073709551615⟩)
        ∧ List.Forall₂ (kit.IsRowOf (.language "occ")) [⟨"doc://Kit/swap"⟩, ⟨"doc://Kit/swap"⟩] rows)
      ∧ kit.Prunes (.language "occ") [⟨"doc://Kit/bare"⟩, ⟨"doc://Kit/swap"⟩] [⟨"doc://Kit/swap"⟩]
      ∧ (kit.block? (.language "occ")
          (some ⟨[⟨"doc://Kit/bare"⟩, ⟨"doc://Kit/swap"⟩], 7⟩)).outcome
        = (kit.block? (.language "occ") (some ⟨[⟨"doc://Kit/swap"⟩], 7⟩)).outcome := by
  have quiet : kit.IsQuiet := nofun
  obtain ⟨filter, -, deletion, -⟩ := block?_filters quiet (.language "occ")
  obtain ⟨rows, outcome, each, -⟩ := filter ⟨[⟨"doc://Kit/bare"⟩, ⟨"doc://Kit/swap"⟩,
    ⟨"doc://Kit/gone"⟩, ⟨"doc://Kit/swap"⟩], 18446744073709551615⟩
  have pruned : kit.Prunes (.language "occ") [⟨"doc://Kit/bare"⟩, ⟨"doc://Kit/swap"⟩]
      [⟨"doc://Kit/swap"⟩] :=
    .delete (show kit.Skips (.language "occ") ⟨"doc://Kit/bare"⟩ by decide) (.keep _ .nil)
  exact ⟨quiet, ⟨rows, outcome, each⟩, pruned, (deletion _ _ 7 pruned).1⟩

end DeclarationDocs.Context
