import Mathlib.Data.List.Basic
import DeclarationDocs.Proofs.Collector
import DeclarationDocs.Proofs.Render.Layout

/-!
# Work that is split up

A list of symbols may be cut into parts, each of which is rendered with a collector of its own. No
symbol leaves anything behind for the next one, so the parts' pages are the pages of the whole list,
and the collectors merged in the order of the parts are the collector of the whole list. In any
other order the reports are the same up to their order.

Main statement: `Context.parts_make_whole`.
-/

namespace DeclarationDocs.Context

/-- The collector of a part that is rendered on its own. -/
def collected (context : Context) (symbols : List Symbol) : Collector :=
  Collector.empty.collect (context.pages symbols)

/-- The pages of parts that are rendered one by one. -/
def pagesOfParts (context : Context) (parts : List (List Symbol)) :
    Except Fault (List (List (Reference × Section))) :=
  parts.mapM fun part => (context.pages part).outcome

/-- A page shows a symbol: it has the symbol's reference and the section that the symbol has when it
is rendered alone. -/
def IsPageOf (context : Context) (symbol : Symbol) (page : Reference × Section) : Prop :=
  page.1 = symbol.reference ∧ (context.section? symbol).outcome = .ok (some page.2)

/-! ## Pages and reports of a list -/

/-- Each symbol with declarations has one page, and the others have none. -/
theorem forall₂_isPageOf {context : Context} (quiet : context.IsQuiet) (symbols : List Symbol) :
    List.Forall₂ context.IsPageOf (symbols.filter Symbol.hasDeclarations)
      (symbols.filterMap context.shownPage?) := by
  induction symbols with
  | nil => exact .nil
  | cons symbol rest ih =>
    have shown := section?_eq quiet symbol
    unfold shownSection? at shown
    cases declared : symbol.hasDeclarations with
    | false =>
      have unshown : context.shownPage? symbol = none := by
        simp [shownPage?, shownSection?, declared]
      rw [List.filter_cons_of_neg (by simp [declared]), List.filterMap_cons_none unshown]
      exact ih
    | true =>
      rw [if_pos declared] at shown
      have page : context.shownPage? symbol = some (symbol.reference,
          ⟨(context.shownTraits symbol).flatMap (·.contents.entries)⟩) := by
        simp [shownPage?, shownSection?, declared]
      rw [List.filter_cons_of_pos declared, List.filterMap_cons_some page]
      exact .cons ⟨rfl, by rw [shown]⟩ ih

/-- The reports of a list are those of its symbols, one symbol after the other. -/
theorem reports_pages {context : Context} (quiet : context.IsQuiet) (symbols : List Symbol) :
    (context.pages symbols).reports
      = symbols.flatMap fun symbol => (context.section? symbol).reports := by
  unfold Run.reports
  rw [pages_eq quiet, Trace.reports_flatMap]
  refine List.flatMap_congr fun symbol _ => ?_
  rw [section?_eq quiet]

theorem reports_pages_perm {context : Context} (quiet : context.IsQuiet)
    {symbols reordered : List Symbol} (same : symbols.Perm reordered) :
    (context.pages symbols).reports.Perm (context.pages reordered).reports := by
  rw [reports_pages quiet, reports_pages quiet]
  exact same.flatMap_right _

/-! ## Parts and the whole -/

theorem pagesOfParts_eq {context : Context} (quiet : context.IsQuiet)
    (parts : List (List Symbol)) :
    context.pagesOfParts parts = .ok (parts.map fun part => part.filterMap context.shownPage?) := by
  unfold pagesOfParts
  rw [funext fun part => congrArg Run.outcome (pages_eq quiet part)]
  exact List.mapM_pure

/-- The collectors of parts, merged in their order, are the collector of the whole list. -/
theorem mergeAll_collected {context : Context} (quiet : context.IsQuiet) (collector : Collector)
    (parts : List (List Symbol)) :
    collector.mergeAll (parts.map context.collected)
      = collector.collect (context.pages parts.flatten) := by
  have part : ∀ symbols, (context.collected symbols).references
      = symbols.flatMap fun symbol => (context.section? symbol).reports := by
    intro symbols
    unfold collected
    rw [Collector.references_collect, reports_pages quiet]
    rfl
  refine Collector.ext ?_
  rw [Collector.references_mergeAll, Collector.references_collect, reports_pages quiet,
    List.flatMap_map, funext part, ← List.flatMap_id, List.flatMap_assoc]
  rfl

/-- Parts rendered on their own have together the pages of the whole list, one for each symbol with
declarations. Their collectors, merged in order, are the collector of the whole list; if the symbols
are rendered in another order, or the collectors merged in another one, every page stays what it is
and the reports are the same up to their order. -/
theorem parts_make_whole {context : Context} (quiet : context.IsQuiet) (symbols : List Symbol)
    (collector : Collector) :
    ∃ pages, (context.pages symbols).outcome = .ok pages
      ∧ List.Forall₂ context.IsPageOf (symbols.filter Symbol.hasDeclarations) pages
      ∧ (∀ parts : List (List Symbol), parts.flatten = symbols →
          (∃ results, context.pagesOfParts parts = .ok results ∧ results.flatten = pages)
          ∧ collector.mergeAll (parts.map context.collected)
            = collector.collect (context.pages symbols))
      ∧ ∀ parts : List (List Symbol), parts.flatten.Perm symbols →
          ∀ collectors : List Collector, collectors.Perm (parts.map context.collected) →
          (∃ results, context.pagesOfParts parts = .ok results
            ∧ List.Forall₂ context.IsPageOf (parts.flatten.filter Symbol.hasDeclarations)
              results.flatten
            ∧ results.flatten.Perm pages)
          ∧ (collector.mergeAll collectors).references.Perm
            (collector.collect (context.pages symbols)).references
          ∧ (collector.mergeAll collectors).unique.Perm
            (collector.collect (context.pages symbols)).unique := by
  refine ⟨_, congrArg Run.outcome (pages_eq quiet symbols), forall₂_isPageOf quiet symbols, ?_, ?_⟩
  · rintro parts rfl
    exact ⟨⟨_, pagesOfParts_eq quiet parts, List.filterMap_flatten.symm⟩,
      mergeAll_collected quiet collector parts⟩
  · intro parts reordered collectors shuffled
    have pages : (parts.map fun part => part.filterMap context.shownPage?).flatten
        = parts.flatten.filterMap context.shownPage? := List.filterMap_flatten.symm
    have reports : (collector.mergeAll collectors).references.Perm
        (collector.collect (context.pages symbols)).references := by
      refine (collector.references_mergeAll_perm shuffled).trans ?_
      rw [mergeAll_collected quiet, Collector.references_collect, Collector.references_collect]
      exact List.Perm.append_left _ (reports_pages_perm quiet reordered)
    refine ⟨⟨_, pagesOfParts_eq quiet parts, ?_, ?_⟩, reports, Collector.unique_perm reports⟩
    · rw [pages]
      exact forall₂_isPageOf quiet parts.flatten
    · rw [pages]
      exact reordered.filterMap _

/-- Two parts, whose collectors are merged in their order and in the other one. -/
theorem swap_parts_make_whole :
    let bare := Symbol.bare ⟨"doc://Kit/bare"⟩ .swift
    let parts := [[swap, bare], [bare, swap]]
    let collector : Collector := ⟨[⟨"doc://Kit"⟩]⟩
    let whole := collector.collect (kit.pages [swap, bare, bare, swap])
    kit.IsQuiet ∧ parts.flatten = [swap, bare, bare, swap]
      ∧ collector.mergeAll (parts.map kit.collected) = whole
      ∧ (collector.mergeAll (parts.map kit.collected).reverse).references.Perm whole.references
      ∧ (collector.mergeAll (parts.map kit.collected).reverse).unique.Perm whole.unique := by
  intro bare parts collector whole
  have quiet : kit.IsQuiet := nofun
  obtain ⟨pages, -, -, inOrder, inAnyOrder⟩ :=
    parts_make_whole quiet [swap, bare, bare, swap] collector
  obtain ⟨-, reports, seen⟩ := inAnyOrder parts (.refl _) _ (List.reverse_perm _)
  exact ⟨quiet, rfl, (inOrder parts rfl).2, reports, seen⟩

end DeclarationDocs.Context
