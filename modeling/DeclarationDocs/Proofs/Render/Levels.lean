import DeclarationDocs.Proofs.Render.Quiet

/-!
# Diagnostic levels

A listed overload without a declaration is passed over in silence, with a warning, or with a warning
that ends the run. The three levels are compared on the traces of the runs: `ignore` drops the
warnings of `warn`, and `assert` cuts the run of `warn` short behind its first warning.

The relation `Run.CutShort` is kept by every way in which a run is put together, so it holds of whole
sections as soon as it holds of one listed overload.
-/

namespace DeclarationDocs

/-! ## Warnings -/

/-- Whether an event is a warning. -/
def Event.isWarning (event : Event) : Bool := event.severity = .warn

/-- Whether an effect writes a warning to the log. -/
def Effect.isWarning : Effect → Bool
  | .log event => event.isWarning
  | _ => false

namespace Trace

/-- The trace without its warnings. -/
def withoutWarnings (trace : List Effect) : List Effect := trace.filter fun effect => !effect.isWarning

theorem withoutWarnings_of_silent {trace : List Effect}
    (silent : ∀ effect ∈ trace, effect.isWarning = false) : withoutWarnings trace = trace := by
  apply List.filter_eq_self.mpr
  intro effect member
  rw [silent effect member]
  rfl

/-- Leaving out the warnings of a trace leaves them out of its log. -/
theorem log_withoutWarnings (spans : List Reference) (trace : List Effect) :
    log spans (withoutWarnings trace)
      = (log spans trace).filter fun entry => !entry.event.isWarning := by
  unfold withoutWarnings
  induction trace generalizing spans with
  | nil => rfl
  | cons effect rest ih =>
    cases effect with
    | report reference => exact ih spans
    | enter symbol => exact ih (symbol :: spans)
    | leave => exact ih spans.tail
    | log event =>
      cases warning : event.isWarning with
      | true => simpa [log, Effect.isWarning, warning] using ih spans
      | false => simpa [log, Effect.isWarning, warning] using ih spans

theorem reports_withoutWarnings (trace : List Effect) :
    reports (withoutWarnings trace) = reports trace := by
  unfold reports withoutWarnings
  rw [List.filterMap_filter]
  refine congrArg (List.filterMap · trace) (funext fun effect => ?_)
  cases effect with
  | log event => cases event.isWarning <;> simp [Effect.isWarning]
  | _ => rfl

theorem exists_warning_log_iff (spans : List Reference) (trace : List Effect) :
    (∃ entry ∈ log spans trace, entry.event.isWarning = true)
      ↔ ∃ effect ∈ trace, effect.isWarning = true := by
  induction trace generalizing spans with
  | nil => simp [log]
  | cons effect rest ih =>
    cases effect with
    | report reference => simpa [log, Effect.isWarning] using ih spans
    | enter symbol => simpa [log, Effect.isWarning] using ih (symbol :: spans)
    | leave => simpa [log, Effect.isWarning] using ih spans.tail
    | log event => simpa [log, Effect.isWarning] using or_congr_right (ih spans)

/-- Every span that is opened is closed again, and no other one is. -/
def Balanced (trace : List Effect) : Prop := ∀ spans, openSpans spans trace = spans

theorem Balanced.append {first second : List Effect} (one : Balanced first)
    (two : Balanced second) : Balanced (first ++ second) := by
  intro spans
  rw [openSpans_append, one, two]

theorem balanced_nil : Balanced [] := fun _ => rfl

theorem balanced_report (reference : Reference) : Balanced [.report reference] := fun _ => rfl

theorem balanced_log (event : Event) : Balanced [.log event] := fun _ => rfl

end Trace

/-! ## Runs that are cut short -/

namespace Run

variable {α β : Type}

/-- The second run goes like the first one up to the first warning, which ends it: nothing but the
closing of spans comes after. Without a warning the two runs are the same. Either way the second run
leaves the open spans as they were. -/
inductive CutShort (run cut : Run α) : Prop where
  | unwarned (silent : ∀ effect ∈ run.trace, effect.isWarning = false) (same : cut = run)
      (balanced : Trace.Balanced cut.trace)
  | warned (before after closing : List Effect) (reference : Reference) (trait : Trait)
      (split : run.trace = before ++ .log (.missingFragments reference trait) :: after)
      (silent : ∀ effect ∈ before, effect.isWarning = false)
      (fault : cut.outcome = .error ⟨reference, trait⟩)
      (trace : cut.trace = before ++ .log (.missingFragments reference trait) :: closing)
      (closes : ∀ effect ∈ closing, effect = .leave)
      (balanced : Trace.Balanced cut.trace)

theorem CutShort.balanced {run cut : Run α} (short : CutShort run cut) :
    Trace.Balanced cut.trace := by
  cases short with
  | unwarned _ _ balanced => exact balanced
  | warned _ _ _ _ _ _ _ _ _ _ balanced => exact balanced

theorem CutShort.pure (value : α) : CutShort (Pure.pure value : Run α) (Pure.pure value) :=
  .unwarned (fun _ member => nomatch member) rfl Trace.balanced_nil

/-- A run that has a value in spite of being cut short was not cut. -/
theorem CutShort.eq_of_ok {run cut : Run α} {value : α} (short : CutShort run cut)
    (survives : cut.outcome = .ok value) : cut = run := by
  cases short with
  | unwarned _ same _ => exact same
  | warned _ _ _ _ _ _ _ fault _ _ _ =>
    rw [fault] at survives
    cases survives

/-- Where the level is not asked for, the run stays as it is. -/
theorem CutShort.log {event : Event} (silent : event.isWarning = false) :
    CutShort (Run.log event) (Run.log event) :=
  .unwarned (fun _ member => List.mem_singleton.mp member ▸ silent) rfl (Trace.balanced_log event)

/-- Runs that are cut short are joined to a run that is cut short. -/
theorem CutShort.bind {run cut : Run α} {next nextCut : α → Run β} (first : CutShort run cut)
    (second : ∀ value, CutShort (next value) (nextCut value)) :
    CutShort (run >>= next) (cut >>= nextCut) := by
  cases first with
  | unwarned silent same balanced =>
    subst cut
    obtain ⟨outcome, trace⟩ := run
    cases outcome with
    | error fault => exact .unwarned silent rfl balanced
    | ok value =>
      -- both runs go on with the same value, and the second part decides
      rw [bind_of_ok, bind_of_ok]
      cases second value with
      | unwarned quiet same closed =>
        rw [same] at closed ⊢
        refine .unwarned ?_ rfl (balanced.append closed)
        intro effect member
        rcases List.mem_append.mp member with early | late
        · exact silent effect early
        · exact quiet effect late
      | warned before after closing reference trait split quiet fault cutTrace closes closed =>
        refine .warned (trace ++ before) after closing reference trait ?_ ?_ fault ?_ closes
          (balanced.append closed)
        · simp [split]
        · intro effect member
          rcases List.mem_append.mp member with early | late
          · exact silent effect early
          · exact quiet effect late
        · simp [cutTrace]
  | warned before after closing reference trait split silent fault cutTrace closes balanced =>
    -- the cut run has no value to go on with, so only the other one is continued
    obtain ⟨tail, joined⟩ : ∃ tail, (run >>= next).trace = run.trace ++ tail :=
      ⟨_, trace_bind run next⟩
    have stopped : (cut >>= nextCut).trace = cut.trace := by
      rw [trace_bind, fault, List.append_nil]
    refine .warned before (after ++ tail) closing reference trait ?_ silent ?_ ?_ closes ?_
    · rw [joined, split, List.append_assoc, List.cons_append]
    · rw [outcome_bind, fault]
      rfl
    · rw [stopped, cutTrace]
    · rw [stopped]
      exact balanced

theorem CutShort.mapM {item itemCut : α → Run β}
    (each : ∀ a, CutShort (item a) (itemCut a)) (list : List α) :
    CutShort (list.mapM item) (list.mapM itemCut) := by
  induction list with
  | nil => exact .pure []
  | cons a rest ih =>
    rw [List.mapM_cons, List.mapM_cons]
    exact (each a).bind fun _ => ih.bind fun _ => .pure _

/-- The span around a run is closed also when the run is cut short. -/
theorem CutShort.within {run cut : Run α} (symbol : Reference) (work : CutShort run cut) :
    CutShort (run.within symbol) (cut.within symbol) := by
  have balanced : Trace.Balanced (cut.within symbol).trace := by
    intro spans
    show Trace.openSpans (symbol :: spans) (cut.trace ++ [.leave]) = spans
    rw [Trace.openSpans_append, work.balanced]
    rfl
  cases work with
  | unwarned silent same _ =>
    subst cut
    refine .unwarned ?_ rfl balanced
    intro effect member
    rcases List.mem_cons.mp member with rfl | member
    · rfl
    · rcases List.mem_append.mp member with inner | last
      · exact silent effect inner
      · rw [List.mem_singleton.mp last]
        rfl
  | warned before after closing reference trait split silent fault trace closes _ =>
    -- the span is left behind the warning in one run and behind everything in the other
    refine .warned (.enter symbol :: before) (after ++ [.leave]) (closing ++ [.leave]) reference
      trait ?_ ?_ fault ?_ ?_ balanced
    · simp [Run.within, split]
    · intro effect member
      rcases List.mem_cons.mp member with rfl | inner
      · rfl
      · exact silent effect inner
    · simp [Run.within, trace]
    · intro effect member
      rcases List.mem_append.mp member with inner | last
      · exact closes effect inner
      · exact List.mem_singleton.mp last

end Run

/-! ## One context at three levels -/

namespace Context

/-- The context with another diagnostic level. -/
def withLevel (context : Context) (level : DiagnosticLevel) : Context :=
  { context with config := { context.config with missingOverloadFragments := level } }

theorem isQuiet_ignore (context : Context) : (context.withLevel .ignore).IsQuiet := nofun

theorem isQuiet_warn (context : Context) : (context.withLevel .warn).IsQuiet := nofun

theorem fragmentTrace_silent (context : Context) (fragment : Fragment) :
    ∀ effect ∈ context.fragmentTrace fragment, effect.isWarning = false := by
  intro effect member
  unfold fragmentTrace at member
  split at member
  · exact absurd member List.not_mem_nil
  · split at member <;> rw [List.mem_singleton.mp member] <;> rfl

theorem fragmentTrace_balanced (context : Context) (fragment : Fragment) :
    Trace.Balanced (context.fragmentTrace fragment) := by
  unfold fragmentTrace
  split
  · exact Trace.balanced_nil
  · split
    · exact Trace.balanced_report _
    · exact Trace.balanced_log _

theorem tokens_cutShort (context : Context) (fragments : List Fragment) :
    Run.CutShort ((context.withLevel .warn).tokens fragments)
      ((context.withLevel .assert).tokens fragments) := by
  refine Run.CutShort.mapM (fun fragment => ?_) fragments
  rw [show (context.withLevel .assert).token = (context.withLevel .warn).token from rfl, token_eq]
  exact .unwarned (fragmentTrace_silent _ fragment) rfl (fragmentTrace_balanced _ fragment)

theorem flagMissing_cutShort (context : Context) (reference : Reference) (trait : Trait) :
    Run.CutShort ((context.withLevel .warn).flagMissing reference trait)
      ((context.withLevel .assert).flagMissing reference trait) :=
  .warned [] [] [] reference trait rfl (fun _ member => nomatch member) rfl rfl
    (fun _ member => nomatch member) (Trace.balanced_log _)

theorem row?_cutShort (context : Context) (trait : Trait) (reference : Reference) :
    Run.CutShort ((context.withLevel .warn).row? trait reference)
      ((context.withLevel .assert).row? trait reference) := by
  unfold row?
  rw [show (context.withLevel .assert).entity = (context.withLevel .warn).entity from rfl]
  cases (context.withLevel .warn).entity reference with
  | error error => exact (Run.CutShort.log rfl).bind fun _ => .pure none
  | ok node =>
    cases node with
    | article page => exact (Run.CutShort.log rfl).bind fun _ => .pure none
    | symbol sibling =>
      dsimp only
      cases sibling.firstDeclaration? trait with
      | none => exact (flagMissing_cutShort context reference trait).bind fun _ => .pure none
      | some declaration =>
        exact (tokens_cutShort context declaration.fragments).bind fun _ => .pure _

theorem block?_cutShort (context : Context) (trait : Trait) (group? : Option OverloadGroup) :
    Run.CutShort ((context.withLevel .warn).block? trait group?)
      ((context.withLevel .assert).block? trait group?) := by
  cases group? with
  | none => exact .pure none
  | some group =>
    show Run.CutShort (some <$> (context.withLevel .warn).block trait group)
      (some <$> (context.withLevel .assert).block trait group)
    rw [map_eq_pure_bind, map_eq_pure_bind]
    exact ((Run.CutShort.mapM (row?_cutShort context trait) _).bind fun _ => .pure _).bind
      fun _ => .pure _

theorem entries_cutShort (context : Context) (symbol : Symbol) (trait : Trait) :
    Run.CutShort ((context.withLevel .warn).entries symbol trait)
      ((context.withLevel .assert).entries symbol trait) := by
  unfold entries
  cases symbol.declarations trait with
  | nil => exact .pure []
  | cons pair rest =>
    have shown : ∀ pair, Run.CutShort ((context.withLevel .warn).shownPair pair)
        ((context.withLevel .assert).shownPair pair) := by
      intro pair
      exact (tokens_cutShort context pair.declaration.fragments).bind fun _ => .pure _
    exact (Run.CutShort.mapM shown _).bind fun _ =>
      (block?_cutShort context trait _).bind fun _ => .pure _

theorem traitSections_cutShort (context : Context) (symbol : Symbol) :
    Run.CutShort ((context.withLevel .warn).traitSections symbol)
      ((context.withLevel .assert).traitSections symbol) :=
  (Run.CutShort.mapM
    (fun trait => (entries_cutShort context symbol trait).bind fun _ => .pure _) _).bind
    fun _ => .pure _

theorem section?_cutShort (context : Context) (symbol : Symbol) :
    Run.CutShort ((context.withLevel .warn).section? symbol)
      ((context.withLevel .assert).section? symbol) := by
  refine Run.CutShort.within symbol.reference
    ((traitSections_cutShort context symbol).bind fun sections => ?_)
  split
  · exact (Run.CutShort.log rfl).bind fun _ => .pure none
  · exact .pure _

theorem pages_cutShort (context : Context) (symbols : List Symbol) :
    Run.CutShort ((context.withLevel .warn).pages symbols)
      ((context.withLevel .assert).pages symbols) :=
  (Run.CutShort.mapM (fun symbol => (section?_cutShort context symbol).bind fun _ => .pure _)
    symbols).bind fun _ => .pure _

/-- A run that has a value at the level `assert` is the run at `warn`. -/
theorem eq_warn_of_ok {α : Type} (run : Context → Run α)
    (short : ∀ context : Context,
      Run.CutShort (run (context.withLevel .warn)) (run (context.withLevel .assert)))
    {context : Context} (loud : ¬ context.IsQuiet) {value : α}
    (survives : (run context).outcome = .ok value) :
    run context = run (context.withLevel .warn) := by
  obtain ⟨resolve?, entity, level, log⟩ := context
  obtain rfl : level = .assert := Classical.not_not.mp loud
  exact (short ⟨resolve?, entity, .assert, log⟩).eq_of_ok survives

/-! ## Warnings left out -/

/-- Silence about an overload is its warning left out; the rest of a trace has no level. -/
theorem rowTrace_ignore (context : Context) (trait : Trait) (reference : Reference) :
    (context.withLevel .ignore).rowTrace trait reference
      = Trace.withoutWarnings ((context.withLevel .warn).rowTrace trait reference) := by
  unfold rowTrace
  rw [show (context.withLevel .ignore).entity = context.entity from rfl,
    show (context.withLevel .warn).entity = context.entity from rfl]
  cases context.entity reference with
  | error error => rfl
  | ok node =>
    cases node with
    | article page => rfl
    | symbol sibling =>
      dsimp only
      cases sibling.firstDeclaration? trait with
      | none => rfl
      | some declaration =>
        refine (Trace.withoutWarnings_of_silent ?_).symm
        intro effect member
        obtain ⟨fragment, -, member⟩ := List.mem_flatMap.mp member
        exact fragmentTrace_silent _ fragment effect member

theorem pairTrace_silent (context : Context) (pairs : List PlatformDeclaration) :
    ∀ effect ∈ pairs.flatMap context.pairTrace, effect.isWarning = false := by
  intro effect member
  obtain ⟨pair, -, member⟩ := List.mem_flatMap.mp member
  obtain ⟨fragment, -, member⟩ := List.mem_flatMap.mp member
  exact fragmentTrace_silent context fragment effect member

theorem traitTrace_ignore (context : Context) (symbol : Symbol) (trait : Trait) :
    (context.withLevel .ignore).traitTrace symbol trait
      = Trace.withoutWarnings ((context.withLevel .warn).traitTrace symbol trait) := by
  unfold traitTrace
  split
  · rfl
  · unfold Trace.withoutWarnings
    rw [List.filter_append]
    congr 1
    -- the trait's own declarations trace no warning; those of its block are left out row by row
    · exact (Trace.withoutWarnings_of_silent (pairTrace_silent _ _)).symm
    · cases symbol.overloads? trait with
      | none => rfl
      | some group =>
        show group.references.flatMap _ = List.filter _ (group.references.flatMap _)
        rw [List.filter_flatMap, funext (rowTrace_ignore context trait)]
        rfl

theorem traitsTrace_ignore (context : Context) (symbol : Symbol) :
    (context.withLevel .ignore).traitsTrace symbol
      = Trace.withoutWarnings ((context.withLevel .warn).traitsTrace symbol) := by
  unfold traitsTrace Trace.withoutWarnings
  rw [List.filter_flatMap, funext (traitTrace_ignore context symbol)]
  rfl

theorem sectionTrace_ignore (context : Context) (symbol : Symbol) :
    (context.withLevel .ignore).sectionTrace symbol
      = Trace.withoutWarnings ((context.withLevel .warn).sectionTrace symbol) := by
  unfold sectionTrace
  rw [traitsTrace_ignore]
  cases symbol.hasDeclarations <;> simp [Trace.withoutWarnings, Effect.isWarning, Event.isWarning,
    Event.severity]

theorem pagesTrace_ignore (context : Context) (symbols : List Symbol) :
    symbols.flatMap (context.withLevel .ignore).sectionTrace
      = Trace.withoutWarnings (symbols.flatMap (context.withLevel .warn).sectionTrace) := by
  unfold Trace.withoutWarnings
  rw [List.filter_flatMap, funext (sectionTrace_ignore context)]
  rfl

end Context

end DeclarationDocs
