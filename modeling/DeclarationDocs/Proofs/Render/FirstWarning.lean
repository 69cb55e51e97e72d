import DeclarationDocs.Proofs.Render.Levels

/-!
# The first warning

What the diagnostic level decides about a rendering step. At the level `assert` the run stops behind
its first warning. This module says where in a symbol that is, and joins the comparison of the levels
into one law, `LevelLaw`, for sections of traits, sections and lists of pages.
-/

namespace DeclarationDocs

/-! ## Finding a place in a concatenation -/

/-- An entry of two joined lists is in the first one, or it comes behind the first one. -/
theorem split_append {α : Type} {first second before after : List α} {a : α}
    (split : first ++ second = before ++ a :: after) :
    (∃ outer, first = before ++ a :: outer)
      ∨ ∃ inner, second = inner ++ a :: after ∧ before = first ++ inner := by
  rcases List.append_eq_append_iff.mp split with ⟨gap, front, back⟩ | ⟨gap, front, back⟩
  · exact .inr ⟨gap, back, front⟩
  · cases gap with
    | nil => exact .inr ⟨[], back.symm, by rw [front, List.append_nil, List.append_nil]⟩
    | cons c gap =>
      rw [List.cons_append, List.cons.injEq] at back
      obtain ⟨rfl, -⟩ := back
      exact .inl ⟨gap, front⟩

/-- An entry of a concatenation of lists comes from one of them, and what stands before it are the
lists before and the front of that one. -/
theorem split_flatMap {α β : Type} {f : α → List β} {list : List α} {before after : List β}
    {b : β} (split : list.flatMap f = before ++ b :: after) :
    ∃ earlier a later inner outer, list = earlier ++ a :: later ∧ f a = inner ++ b :: outer
      ∧ before = earlier.flatMap f ++ inner := by
  induction list generalizing before with
  | nil => exact absurd split.symm (by simp)
  | cons a rest ih =>
    rw [List.flatMap_cons] at split
    rcases split_append split with ⟨outer, found⟩ | ⟨gap, back, front⟩
    · exact ⟨[], a, rest, before, outer, rfl, found, rfl⟩
    · obtain ⟨earlier, c, later, inner, outer, same, found, start⟩ := ih back
      refine ⟨a :: earlier, c, later, inner, outer, ?_, found, ?_⟩
      · rw [same, List.cons_append]
      · rw [front, start, List.flatMap_cons, List.append_assoc]

/-! ## Where a run stops -/

namespace Context

/-- A symbol is rendered up to a listed overload that lacks a declaration: the traits before, the
declarations of the trait itself and the overloads listed before it have been rendered, and these are
their reports. -/
def StopsWithin (context : Context) (symbol : Symbol) (fault : Fault) (reports : List Reference) :
    Prop :=
  ∃ earlier later group listed rest,
    symbol.traits = earlier ++ fault.trait :: later
    ∧ symbol.overloads? fault.trait = some group
    ∧ group.references = listed ++ fault.reference :: rest
    ∧ reports = earlier.flatMap (fun trait => (context.entries symbol trait).reports)
        ++ (symbol.declarations fault.trait).flatMap
            (fun pair => (context.tokens pair.declaration.fragments).reports)
        ++ listed.flatMap fun reference => (context.row? fault.trait reference).reports

/-- Symbols are rendered one after the other up to one in which rendering stops. -/
def StopsAmong (context : Context) (symbols : List Symbol) (fault : Fault)
    (reports : List Reference) : Prop :=
  ∃ earlier symbol later inner,
    symbols = earlier ++ symbol :: later
    ∧ context.StopsWithin symbol fault inner
    ∧ reports = earlier.flatMap (fun symbol => (context.section? symbol).reports) ++ inner

/-- A warning in the trace of an overload is about that overload, and nothing else is traced. -/
theorem eq_of_warning_in_rowTrace {context : Context} {trait : Trait} {reference : Reference}
    {effect : Effect} (member : effect ∈ context.rowTrace trait reference)
    (warning : effect.isWarning = true) :
    context.rowTrace trait reference = [.log (.missingFragments reference trait)] := by
  unfold rowTrace at member ⊢
  split at member
  · rw [List.mem_singleton.mp member] at warning
    exact Bool.noConfusion warning
  · rw [List.mem_singleton.mp member] at warning
    exact Bool.noConfusion warning
  · split at member
    · unfold missingTrace at member ⊢
      split at member
      · exact absurd member List.not_mem_nil
      · rfl
    · obtain ⟨fragment, -, member⟩ := List.mem_flatMap.mp member
      rw [fragmentTrace_silent context fragment effect member] at warning
      exact Bool.noConfusion warning

/-! The reports of a step are those of its trace. -/

theorem reports_tokens (context : Context) (pair : PlatformDeclaration) :
    (context.tokens pair.declaration.fragments).reports
      = Trace.reports (context.pairTrace pair) := by
  unfold Run.reports
  rw [tokens_eq]
  rfl

theorem reports_row? {context : Context} (quiet : context.IsQuiet) (trait : Trait)
    (reference : Reference) :
    (context.row? trait reference).reports = Trace.reports (context.rowTrace trait reference) := by
  unfold Run.reports
  rw [row?_eq quiet]

theorem reports_entries {context : Context} (quiet : context.IsQuiet) (symbol : Symbol)
    (trait : Trait) :
    (context.entries symbol trait).reports = Trace.reports (context.traitTrace symbol trait) := by
  unfold Run.reports
  rw [entries_eq quiet]

theorem reports_section? {context : Context} (quiet : context.IsQuiet) (symbol : Symbol) :
    (context.section? symbol).reports = Trace.reports (context.sectionTrace symbol) := by
  unfold Run.reports
  rw [section?_eq quiet]

/-- A warning among the traits of a symbol is about an overload in the group of one of them. -/
theorem stopsWithin_of_traitsTrace {context : Context} (quiet : context.IsQuiet) {symbol : Symbol}
    {before after : List Effect} {reference : Reference} {trait : Trait}
    (split : context.traitsTrace symbol
      = before ++ .log (.missingFragments reference trait) :: after) :
    context.StopsWithin symbol ⟨reference, trait⟩ (Trace.reports before) := by
  obtain ⟨earlier, found, later, inner, outer, traits, within, start⟩ := split_flatMap split
  unfold traitTrace at within
  split at within
  · exact absurd within.symm (by simp)
  · rcases split_append within with ⟨outer, own⟩ | ⟨block, within, front⟩
    · -- the trait's own declarations trace no warning
      have member := own ▸ List.mem_append_right inner List.mem_cons_self
      exact Bool.noConfusion (pairTrace_silent context _ _ member)
    · cases overloads : symbol.overloads? found with
      | none =>
        rw [overloads] at within
        exact absurd within.symm (by simp [blockTrace])
      | some group =>
        rw [overloads] at within
        obtain ⟨listed, overload, rest, row, outer, references, within, rows⟩ :=
          split_flatMap within
        have member : Effect.log (.missingFragments reference trait)
            ∈ context.rowTrace found overload :=
          within ▸ List.mem_append_right row List.mem_cons_self
        have alone := eq_of_warning_in_rowTrace member rfl
        rw [alone, List.mem_singleton, Effect.log.injEq, Event.missingFragments.injEq] at member
        obtain ⟨rfl, rfl⟩ := member
        obtain rfl : row = [] := by
          rw [alone] at within
          cases row with
          | nil => rfl
          | cons effect row => simp at within
        refine ⟨earlier, later, group, listed, rest, traits, overloads, references, ?_⟩
        rw [start, front, rows, List.append_nil, Trace.reports_append, Trace.reports_append,
          Trace.reports_flatMap, Trace.reports_flatMap, Trace.reports_flatMap, ← List.append_assoc]
        simp only [reports_entries quiet, reports_row? quiet, reports_tokens]

/-- A warning in the section of a symbol stems from one of its traits. -/
theorem stopsWithin_of_sectionTrace {context : Context} (quiet : context.IsQuiet)
    {symbol : Symbol} {before after : List Effect} {reference : Reference} {trait : Trait}
    (split : context.sectionTrace symbol
      = before ++ .log (.missingFragments reference trait) :: after) :
    context.StopsWithin symbol ⟨reference, trait⟩ (Trace.reports before) := by
  -- the entry into the symbol comes first, and what follows the traits is no warning
  rw [sectionTrace, List.cons_append, List.append_assoc] at split
  rcases split_append (show [Effect.enter symbol.reference] ++ _ = _ from split) with
    ⟨outer, enter⟩ | ⟨inner, body, front⟩
  · cases before with
    | nil => simp at enter
    | cons effect before => simp at enter
  · rw [front, Trace.reports_append]
    rcases split_append body with ⟨outer, traits⟩ | ⟨tail, last, -⟩
    · exact stopsWithin_of_traitsTrace quiet traits
    · have member := last ▸ List.mem_append_right tail
        (List.mem_cons_self (a := Effect.log (.missingFragments reference trait)) (l := after))
      cases symbol.hasDeclarations <;> simp at member

/-- A warning in a list of pages stems from one of the symbols. -/
theorem stopsAmong_of_pagesTrace {context : Context} (quiet : context.IsQuiet)
    {symbols : List Symbol} {before after : List Effect} {reference : Reference} {trait : Trait}
    (split : symbols.flatMap context.sectionTrace
      = before ++ .log (.missingFragments reference trait) :: after) :
    context.StopsAmong symbols ⟨reference, trait⟩ (Trace.reports before) := by
  obtain ⟨earlier, symbol, later, inner, outer, same, within, start⟩ := split_flatMap split
  refine ⟨earlier, symbol, later, Trace.reports inner, same,
    stopsWithin_of_sectionTrace quiet within, ?_⟩
  rw [start, Trace.reports_append, Trace.reports_flatMap]
  simp only [reports_section? quiet]

end Context

/-! ## The law of the levels -/

/-- How the runs of one rendering step at the levels `ignore`, `warn` and `assert` compare. The last
argument says how far the step has come, and with which reports, when it ends with a fault. -/
structure LevelLaw {α : Type} (ignored warned asserted : Run α)
    (stops : Fault → List Reference → Prop) : Prop where
  /-- Neither quiet level ends with a fault, and the result is the same. -/
  result : ∃ value, ignored.outcome = .ok value ∧ warned.outcome = .ok value
  /-- The quiet levels leave the same reports behind. -/
  sink (collector : Collector) : collector.collect ignored = collector.collect warned
  /-- The log at `ignore` is the log at `warn` without the warnings. -/
  ignored_events : ignored.events = warned.events.filter fun entry => !entry.event.isWarning
  /-- A fault is a warning that was not survived. -/
  fault_iff : (∃ fault, asserted.outcome = .error fault)
    ↔ ∃ entry ∈ warned.events, entry.event.isWarning = true
  /-- Without a fault `assert` is `warn`. -/
  survived (value : α) (survives : asserted.outcome = .ok value) :
    warned.outcome = .ok value ∧ asserted.events = warned.events
      ∧ ∀ collector : Collector, collector.collect asserted = collector.collect warned
  /-- A fault names the first warning, keeps the log up to it and the reports made before it. -/
  stopped (fault : Fault) (faulty : asserted.outcome = .error fault) :
    ∃ before after span,
      warned.trace = before ++ .log (.missingFragments fault.reference fault.trait) :: after
      ∧ (∀ effect ∈ before, effect.isWarning = false)
      ∧ asserted.events
        = Trace.log [] before ++ [⟨.missingFragments fault.reference fault.trait, span⟩]
      ∧ asserted.events <+: warned.events
      ∧ (∀ collector : Collector, (collector.collect asserted).references
        = collector.references ++ Trace.reports before)
      ∧ stops fault (Trace.reports before)
  /-- Every span that was opened is closed again. -/
  closed (spans : List Reference) : Trace.openSpans spans asserted.trace = spans

/-- Closing spans writes nothing to the log and reports nothing. -/
theorem Trace.nothing_in_closing {closing : List Effect}
    (closes : ∀ effect ∈ closing, effect = .leave) (spans : List Reference) :
    Trace.log spans closing = [] ∧ Trace.reports closing = [] := by
  induction closing generalizing spans with
  | nil => exact ⟨rfl, rfl⟩
  | cons effect rest ih =>
    obtain rfl := closes effect List.mem_cons_self
    exact ih (fun effect member => closes effect (List.mem_cons_of_mem _ member)) spans.tail

/-- A run that is cut short behind its first warning obeys the law together with the run without
warnings. -/
theorem LevelLaw.of_cutShort {α : Type} {asserted : Run α} {value : α} {trace : List Effect}
    {stops : Fault → List Reference → Prop}
    (short : Run.CutShort ⟨.ok value, trace⟩ asserted)
    (place : ∀ {before after : List Effect} {reference : Reference} {trait : Trait},
      trace = before ++ .log (.missingFragments reference trait) :: after →
        stops ⟨reference, trait⟩ (Trace.reports before)) :
    LevelLaw ⟨.ok value, Trace.withoutWarnings trace⟩ ⟨.ok value, trace⟩ asserted stops where
  result := ⟨value, rfl, rfl⟩
  sink collector := by
    show (Trace.reports (Trace.withoutWarnings trace)).foldl _ _ = (Trace.reports trace).foldl _ _
    rw [Trace.reports_withoutWarnings]
  ignored_events := Trace.log_withoutWarnings [] trace
  fault_iff := by
    show _ ↔ ∃ entry ∈ Trace.log [] trace, _
    rw [Trace.exists_warning_log_iff]
    cases short with
    | unwarned silent same _ =>
      subst same
      constructor
      · rintro ⟨fault, faulty⟩
        cases faulty
      · rintro ⟨effect, member, warning⟩
        exact Bool.noConfusion ((silent effect member).symm.trans warning)
    | warned before after closing reference trait split _ fault _ _ _ =>
      refine ⟨fun _ => ⟨.log (.missingFragments reference trait), ?_, rfl⟩, fun _ => ⟨_, fault⟩⟩
      show _ ∈ trace
      rw [show trace = _ from split]
      exact List.mem_append_right before List.mem_cons_self
  survived result survives := by
    have same := short.eq_of_ok survives
    rw [same] at survives ⊢
    exact ⟨survives, rfl, fun _ => rfl⟩
  stopped fault faulty := by
    cases short with
    | unwarned _ same _ =>
      subst same
      cases faulty
    | warned before after closing reference trait split silent named cut closes _ =>
      obtain rfl : ⟨reference, trait⟩ = fault := Except.error.inj (named.symm.trans faulty)
      have events : asserted.events = Trace.log [] before
          ++ [⟨.missingFragments reference trait, (Trace.openSpans [] before).head?⟩] := by
        unfold Run.events
        rw [cut, Trace.log_append, Trace.log, (Trace.nothing_in_closing closes _).1]
      have reports : asserted.reports = Trace.reports before := by
        unfold Run.reports
        rw [cut, Trace.reports_append]
        show _ ++ Trace.reports closing = _
        rw [(Trace.nothing_in_closing closes []).2, List.append_nil]
      refine ⟨before, after, _, split, silent, events, ?_, fun collector => ?_, place split⟩
      · refine ⟨Trace.log (Trace.openSpans [] before) after, ?_⟩
        unfold Run.events at events ⊢
        rw [events, show trace = _ from split, Trace.log_append, Trace.log, List.append_assoc]
        rfl
      · rw [Collector.references_collect, reports]
  closed := short.balanced

/-- At the levels `ignore` and `warn` sections, trait sections and pages come out the same and only
the warnings in the log differ; at `assert` the first warning, if there is one, is where the run
ends. -/
theorem Context.levels_differ_in_warnings (context : Context) (symbol : Symbol)
    (symbols : List Symbol) :
    LevelLaw ((context.withLevel .ignore).section? symbol) ((context.withLevel .warn).section? symbol)
        ((context.withLevel .assert).section? symbol)
        ((context.withLevel .warn).StopsWithin symbol)
      ∧ LevelLaw ((context.withLevel .ignore).traitSections symbol)
        ((context.withLevel .warn).traitSections symbol)
        ((context.withLevel .assert).traitSections symbol)
        ((context.withLevel .warn).StopsWithin symbol)
      ∧ LevelLaw ((context.withLevel .ignore).pages symbols)
        ((context.withLevel .warn).pages symbols) ((context.withLevel .assert).pages symbols)
        ((context.withLevel .warn).StopsAmong symbols) := by
  have quiet := context.isQuiet_warn
  have sections := section?_cutShort context symbol
  have traits := traitSections_cutShort context symbol
  have pages := pages_cutShort context symbols
  rw [section?_eq quiet] at sections
  rw [traitSections_eq quiet] at traits
  rw [pages_eq quiet] at pages
  rw [section?_eq context.isQuiet_ignore, section?_eq quiet,
    traitSections_eq context.isQuiet_ignore, traitSections_eq quiet,
    pages_eq context.isQuiet_ignore, pages_eq quiet,
    sectionTrace_ignore, traitsTrace_ignore, pagesTrace_ignore]
  exact ⟨.of_cutShort sections (stopsWithin_of_sectionTrace quiet),
    .of_cutShort traits (stopsWithin_of_traitsTrace quiet),
    .of_cutShort pages (stopsAmong_of_pagesTrace quiet)⟩

end DeclarationDocs
