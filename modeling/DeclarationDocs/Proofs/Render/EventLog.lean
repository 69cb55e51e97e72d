import Mathlib.Data.List.Basic
import DeclarationDocs.Proofs.Render.Layout
import DeclarationDocs.Proofs.Render.Reports

/-!
# The log of a section

Nothing that rendering leaves out is absorbed in silence. This module says event by event what the
rendering of a symbol writes to the log, by walking the data of the symbol alone, and balances the
log against the reports and the result: a rendered fragment with a precise identifier is either
reported or logged, and a listed overload has either a row or, at the level `warn`, one event.

Main statement: `Context.section?_logs_everything`.
-/

namespace DeclarationDocs

/-! ## Traces that open no spans -/

/-- Whether an effect opens or closes a span. -/
def Effect.isSpan : Effect → Bool
  | .enter _ => true
  | .leave => true
  | _ => false

/-- The event that an effect writes to the log. -/
def Effect.event? : Effect → Option Event
  | .log event => some event
  | _ => none

namespace Trace

/-- The events of a trace, without their spans. -/
def logged (trace : List Effect) : List Event := trace.filterMap Effect.event?

theorem logged_append (first second : List Effect) :
    logged (first ++ second) = logged first ++ logged second :=
  List.filterMap_append

theorem logged_flatMap {α : Type} (trace : α → List Effect) (list : List α) :
    logged (list.flatMap trace) = list.flatMap fun a => logged (trace a) := by
  unfold logged
  rw [List.filterMap_flatMap]

/-- Where no span is opened or closed, every event belongs to the span that is open already. -/
theorem log_eq_of_flat {trace : List Effect} (flat : ∀ effect ∈ trace, effect.isSpan = false)
    (spans : List Reference) :
    log spans trace = (logged trace).map fun event => ⟨event, spans.head?⟩ := by
  induction trace with
  | nil => rfl
  | cons effect rest ih =>
    obtain ⟨first, others⟩ := List.forall_mem_cons.mp flat
    cases effect with
    | report reference => exact ih others
    | log event => exact congrArg (_ :: ·) (ih others)
    | enter symbol => cases first
    | leave => cases first

theorem openSpans_eq_of_flat {trace : List Effect}
    (flat : ∀ effect ∈ trace, effect.isSpan = false) (spans : List Reference) :
    openSpans spans trace = spans := by
  induction trace with
  | nil => rfl
  | cons effect rest ih =>
    obtain ⟨first, others⟩ := List.forall_mem_cons.mp flat
    cases effect with
    | report reference => exact ih others
    | log event => exact ih others
    | enter symbol => cases first
    | leave => cases first

/-- The identifiers that a trace accounts for: those that were linked and those logged as unknown. -/
def accounted (trace : List Effect) : Nat :=
  (reports trace).length + (logged trace).countP fun event => event.severity = .trace

/-- The events of a trace that are about more than a single identifier. -/
def notable (trace : List Effect) : Nat :=
  (logged trace).countP fun event => event.severity ≠ .trace

theorem accounted_append (first second : List Effect) :
    accounted (first ++ second) = accounted first + accounted second := by
  simp only [accounted, reports_append, logged_append, List.length_append, List.countP_append]
  omega

theorem notable_append (first second : List Effect) :
    notable (first ++ second) = notable first + notable second := by
  simp only [notable, logged_append, List.countP_append]

end Trace

theorem flatMap_filter {α β : Type} (p : α → Bool) (f : α → List β) (list : List α) :
    (list.filter p).flatMap f = list.flatMap fun a => if p a then f a else [] := by
  induction list with
  | nil => rfl
  | cons a rest ih => cases kept : p a <;> simp [kept, ih]

/-- What is counted item by item, and added up over joined lists, agrees over the whole list. -/
theorem count_flatMap {α β γ : Type} {count : List β → Nat} {size : List γ → Nat}
    (countNil : count [] = 0) (sizeNil : size [] = 0)
    (countAppend : ∀ first second, count (first ++ second) = count first + count second)
    (sizeAppend : ∀ first second, size (first ++ second) = size first + size second)
    {f : α → List β} {g : α → List γ} {list : List α}
    (each : ∀ a ∈ list, count (f a) = size (g a)) :
    count (list.flatMap f) = size (list.flatMap g) := by
  induction list with
  | nil => simp [countNil, sizeNil]
  | cons a rest ih =>
    obtain ⟨first, others⟩ := List.forall_mem_cons.mp each
    rw [List.flatMap_cons, List.flatMap_cons, countAppend, sizeAppend, first, ih others]

/-! ## What there is to be logged -/

namespace Symbol

/-- The traits that have declarations, each with these, in trait order. -/
def declaredTraits (symbol : Symbol) : List (Trait × List PlatformDeclaration) :=
  symbol.declarationVariants.entries.filter fun entry => !entry.2.isEmpty

/-- The overloads that are listed for a trait. -/
def listed (symbol : Symbol) (trait : Trait) : List Reference :=
  match symbol.overloads? trait with
  | some group => group.references
  | none => []

end Symbol

namespace Context

/-- An event for each fragment whose precise identifier the index does not know. -/
def unresolvedEvents (context : Context) (fragments : List Fragment) : List Event :=
  ((fragments.filterMap Fragment.preciseIdentifier).filter fun preciseIdentifier =>
    (context.resolve? preciseIdentifier).isNone).map .unresolvedFragment

/-- The events about a listed overload. -/
def listedEvents (context : Context) (trait : Trait) (reference : Reference) : List Event :=
  match context.entity reference with
  | .error error => [.unresolvedOverload reference error]
  | .ok (.article _) => [.notASymbol reference]
  | .ok (.symbol sibling) =>
    match sibling.declarations trait with
    | [] =>
      if context.config.missingOverloadFragments = .warn then [.missingFragments reference trait]
      else []
    | pair :: _ => context.unresolvedEvents pair.declaration.fragments

/-- The events about a trait: those of its own fragments, then those of the listed overloads. -/
def traitEvents (context : Context) (symbol : Symbol) (entry : Trait × List PlatformDeclaration) :
    List Event :=
  context.unresolvedEvents (entry.2.flatMap fun pair => pair.declaration.fragments)
    ++ (symbol.listed entry.1).flatMap (context.listedEvents entry.1)

/-- The events about a symbol. -/
def symbolEvents (context : Context) (symbol : Symbol) : List Event :=
  match symbol.declaredTraits with
  | [] => [.noDeclarations]
  | traits => traits.flatMap (context.traitEvents symbol)

/-- The fragments that a listed overload contributes to the block of a trait. -/
def listedFragments (context : Context) (trait : Trait) (reference : Reference) : List Fragment :=
  match context.entity reference with
  | .ok (.symbol sibling) =>
    match sibling.declarations trait with
    | [] => []
    | pair :: _ => pair.declaration.fragments
  | _ => []

/-- The fragments of a trait that are rendered: its own, then those of the listed overloads. -/
def traitFragments (context : Context) (symbol : Symbol)
    (entry : Trait × List PlatformDeclaration) : List Fragment :=
  entry.2.flatMap (fun pair => pair.declaration.fragments)
    ++ (symbol.listed entry.1).flatMap (context.listedFragments entry.1)

/-- The fragments of a symbol that are rendered, the block of a trait counted once. -/
def renderedFragments (context : Context) (symbol : Symbol) : List Fragment :=
  symbol.declaredTraits.flatMap (context.traitFragments symbol)

end Context

/-- The rows of the block that the entries of a trait share. -/
def TraitSection.rows (shown : TraitSection) : List SiblingRow :=
  match shown.contents.entries.head?.bind Entry.siblings with
  | some block => block.rows
  | none => []

/-- The tokens of a trait's section: those of its entries, then those of the block they share. -/
def TraitSection.tokens (shown : TraitSection) : List LinkedToken :=
  shown.contents.entries.flatMap Entry.tokens ++ shown.rows.flatMap SiblingRow.tokens

namespace Context

/-! ## Fragments and listed overloads -/

theorem fragmentTrace_flat (context : Context) (fragment : Fragment) :
    ∀ effect ∈ context.fragmentTrace fragment, effect.isSpan = false := by
  intro effect member
  unfold fragmentTrace at member
  split at member
  · exact absurd member List.not_mem_nil
  · split at member <;> rw [List.mem_singleton.mp member] <;> rfl

theorem fragmentsTrace_flat (context : Context) (fragments : List Fragment) :
    ∀ effect ∈ fragments.flatMap context.fragmentTrace, effect.isSpan = false := by
  intro effect member
  obtain ⟨fragment, -, member⟩ := List.mem_flatMap.mp member
  exact fragmentTrace_flat context fragment effect member

theorem rowTrace_flat (context : Context) (trait : Trait) (reference : Reference) :
    ∀ effect ∈ context.rowTrace trait reference, effect.isSpan = false := by
  intro effect member
  unfold rowTrace at member
  split at member
  · rw [List.mem_singleton.mp member]
    rfl
  · rw [List.mem_singleton.mp member]
    rfl
  · split at member
    · unfold missingTrace at member
      split at member
      · exact absurd member List.not_mem_nil
      · rw [List.mem_singleton.mp member]
        rfl
    · exact fragmentsTrace_flat context _ effect member

theorem logged_fragments (context : Context) (fragments : List Fragment) :
    Trace.logged (fragments.flatMap context.fragmentTrace)
      = context.unresolvedEvents fragments := by
  induction fragments with
  | nil => rfl
  | cons fragment rest ih =>
    rw [List.flatMap_cons, Trace.logged_append, ih]
    unfold fragmentTrace unresolvedEvents
    cases named : fragment.preciseIdentifier with
    | none => simp [Trace.logged, named]
    | some preciseIdentifier =>
      cases found : context.resolve? preciseIdentifier with
      | none => simp [Trace.logged, Effect.event?, named, found]
      | some reference => simp [Trace.logged, Effect.event?, named, found]

theorem firstDeclaration?_eq_match (sibling : Symbol) (trait : Trait) :
    sibling.firstDeclaration? trait = match sibling.declarations trait with
      | [] => none
      | pair :: _ => some pair.declaration := by
  unfold Symbol.firstDeclaration?
  cases sibling.declarations trait <;> rfl

theorem logged_rowTrace {context : Context} (quiet : context.IsQuiet) (trait : Trait)
    (reference : Reference) :
    Trace.logged (context.rowTrace trait reference) = context.listedEvents trait reference := by
  unfold rowTrace listedEvents
  cases context.entity reference with
  | error error => rfl
  | ok node =>
    cases node with
    | article page => rfl
    | symbol sibling =>
      dsimp only
      rw [firstDeclaration?_eq_match]
      cases sibling.declarations trait with
      | nil =>
        dsimp only
        unfold missingTrace
        unfold IsQuiet at quiet
        cases level : context.config.missingOverloadFragments with
        | ignore => rfl
        | warn => rfl
        | assert => exact absurd level quiet
      | cons pair rest => exact logged_fragments context pair.declaration.fragments

/-- A fragment is reported or logged when it names something, and it is neither when it does not. -/
theorem accounted_fragments (context : Context) (fragments : List Fragment) :
    Trace.accounted (fragments.flatMap context.fragmentTrace)
      = fragments.countP fun fragment => fragment.preciseIdentifier.isSome := by
  induction fragments with
  | nil => rfl
  | cons fragment rest ih =>
    rw [List.flatMap_cons, Trace.accounted_append, ih, List.countP_cons, Nat.add_comm]
    congr 1
    unfold fragmentTrace
    cases fragment.preciseIdentifier with
    | none => rfl
    | some preciseIdentifier =>
      dsimp only
      cases context.resolve? preciseIdentifier <;> rfl

theorem notable_fragments (context : Context) (fragments : List Fragment) :
    Trace.notable (fragments.flatMap context.fragmentTrace) = 0 := by
  unfold Trace.notable
  rw [logged_fragments, List.countP_eq_zero]
  intro event member
  obtain ⟨preciseIdentifier, -, rfl⟩ := List.mem_map.mp member
  simp [Event.severity]

theorem accounted_rowTrace (context : Context) (trait : Trait) (reference : Reference) :
    Trace.accounted (context.rowTrace trait reference)
      = (context.listedFragments trait reference).countP fun fragment =>
          fragment.preciseIdentifier.isSome := by
  unfold rowTrace listedFragments
  cases context.entity reference with
  | error error => rfl
  | ok node =>
    cases node with
    | article page => rfl
    | symbol sibling =>
      dsimp only
      rw [firstDeclaration?_eq_match]
      cases sibling.declarations trait with
      | nil =>
        dsimp only
        unfold missingTrace
        split <;> rfl
      | cons pair rest => exact accounted_fragments context pair.declaration.fragments

/-- At the level `warn` a listed overload has a row or an event that says why it has none. -/
theorem row_or_event {context : Context} (level : context.config.missingOverloadFragments = .warn)
    (trait : Trait) (reference : Reference) :
    (context.shownRow? trait reference).toList.length
      + Trace.notable (context.rowTrace trait reference) = 1 := by
  unfold shownRow? siblingDeclaration? rowTrace
  cases context.entity reference with
  | error error => rfl
  | ok node =>
    cases node with
    | article page => rfl
    | symbol sibling =>
      dsimp only
      cases sibling.firstDeclaration? trait with
      | none =>
        dsimp only
        unfold missingTrace
        rw [level]
        rfl
      | some declaration =>
        dsimp only
        rw [notable_fragments]
        rfl

theorem shownRow?_tokens (context : Context) (trait : Trait) (reference : Reference) :
    (context.shownRow? trait reference).toList.flatMap SiblingRow.tokens
      = (context.listedFragments trait reference).map context.shownFragment := by
  unfold shownRow? siblingDeclaration? listedFragments
  cases context.entity reference with
  | error error => rfl
  | ok node =>
    cases node with
    | article page => rfl
    | symbol sibling =>
      dsimp only
      rw [firstDeclaration?_eq_match]
      cases sibling.declarations trait with
      | nil => rfl
      | cons pair rest => exact List.append_nil _

/-! ## Traits -/

theorem blockTrace_eq (context : Context) (symbol : Symbol) (trait : Trait) :
    context.blockTrace trait (symbol.overloads? trait)
      = (symbol.listed trait).flatMap (context.rowTrace trait) := by
  unfold Symbol.listed blockTrace
  cases symbol.overloads? trait <;> rfl

/-- What a trait with declarations traces. -/
def entryTrace (context : Context) (symbol : Symbol) (entry : Trait × List PlatformDeclaration) :
    List Effect :=
  (entry.2.flatMap fun pair => pair.declaration.fragments).flatMap context.fragmentTrace
    ++ (symbol.listed entry.1).flatMap (context.rowTrace entry.1)

/-- The traits with declarations are traced one after the other, and the others leave no trace. -/
theorem traitsTrace_eq (context : Context) (symbol : Symbol) :
    context.traitsTrace symbol = symbol.declaredTraits.flatMap (context.entryTrace symbol) := by
  unfold traitsTrace Symbol.traits Symbol.declaredTraits
  rw [List.flatMap_map, flatMap_filter]
  refine List.flatMap_congr fun entry member => ?_
  unfold traitTrace entryTrace
  rw [show symbol.declarations (TraitMap.key entry) = entry.2 from
    Symbol.declarations_of_mem member, blockTrace_eq, List.flatMap_assoc]
  cases entry.2 <;> rfl

theorem shownTraits_eq (context : Context) (symbol : Symbol) :
    context.shownTraits symbol = symbol.declaredTraits.map fun entry =>
      ⟨entry.1, ⟨entry.2.map (context.shownEntry symbol entry.1)⟩⟩ := by
  unfold shownTraits Symbol.traits Symbol.declaredTraits
  rw [List.filterMap_eq_flatMap_toList, List.flatMap_map, List.map_eq_flatMap, flatMap_filter]
  refine List.flatMap_congr fun entry member => ?_
  unfold shownTrait?
  rw [show symbol.declarations (TraitMap.key entry) = entry.2 from
    Symbol.declarations_of_mem member]
  cases entry.2 <;> rfl

theorem declaredTraits_eq_nil_iff (symbol : Symbol) :
    symbol.declaredTraits = [] ↔ symbol.hasDeclarations = false := by
  unfold Symbol.declaredTraits Symbol.hasDeclarations
  rw [List.filter_eq_nil_iff, List.any_eq_false]

theorem entryTrace_flat (context : Context) (symbol : Symbol)
    (entry : Trait × List PlatformDeclaration) :
    ∀ effect ∈ context.entryTrace symbol entry, effect.isSpan = false := by
  intro effect member
  rcases List.mem_append.mp member with own | listed
  · exact fragmentsTrace_flat context _ effect own
  · obtain ⟨reference, -, member⟩ := List.mem_flatMap.mp listed
    exact rowTrace_flat context entry.1 reference effect member

theorem traitsTrace_flat (context : Context) (symbol : Symbol) :
    ∀ effect ∈ context.traitsTrace symbol, effect.isSpan = false := by
  intro effect member
  rw [traitsTrace_eq] at member
  obtain ⟨entry, -, member⟩ := List.mem_flatMap.mp member
  exact entryTrace_flat context symbol entry effect member

theorem logged_entryTrace {context : Context} (quiet : context.IsQuiet) (symbol : Symbol)
    (entry : Trait × List PlatformDeclaration) :
    Trace.logged (context.entryTrace symbol entry) = context.traitEvents symbol entry := by
  unfold entryTrace traitEvents
  rw [Trace.logged_append, logged_fragments, Trace.logged_flatMap]
  congr 1
  exact List.flatMap_congr fun reference _ => logged_rowTrace quiet entry.1 reference

theorem accounted_entryTrace (context : Context) (symbol : Symbol)
    (entry : Trait × List PlatformDeclaration) :
    Trace.accounted (context.entryTrace symbol entry)
      = (context.traitFragments symbol entry).countP fun fragment =>
          fragment.preciseIdentifier.isSome := by
  unfold entryTrace traitFragments
  rw [Trace.accounted_append, accounted_fragments, List.countP_append]
  congr 1
  exact count_flatMap rfl rfl Trace.accounted_append (fun _ _ => List.countP_append)
    fun reference _ => accounted_rowTrace context entry.1 reference

/-- The block of a trait has the rows of the listed overloads. -/
theorem rows_of_entry (context : Context) (symbol : Symbol) {entry : Trait × List PlatformDeclaration}
    (declared : entry ∈ symbol.declaredTraits) :
    TraitSection.rows ⟨entry.1, ⟨entry.2.map (context.shownEntry symbol entry.1)⟩⟩
      = (symbol.listed entry.1).filterMap (context.shownRow? entry.1) := by
  obtain ⟨trait, pairs⟩ := entry
  have some := (List.mem_filter.mp declared).2
  cases pairs with
  | nil => cases some
  | cons pair rest =>
    unfold TraitSection.rows Symbol.listed
    rw [List.map_cons, List.head?_cons, Option.bind_some,
      show (context.shownEntry symbol trait pair).siblings
        = (symbol.overloads? trait).map (context.shownBlock trait) from rfl]
    cases symbol.overloads? trait <;> rfl

/-- The tokens of a trait show the fragments that are rendered for it. -/
theorem tokens_of_entry (context : Context) (symbol : Symbol)
    {entry : Trait × List PlatformDeclaration} (declared : entry ∈ symbol.declaredTraits) :
    TraitSection.tokens ⟨entry.1, ⟨entry.2.map (context.shownEntry symbol entry.1)⟩⟩
      = (context.traitFragments symbol entry).map context.shownFragment := by
  unfold TraitSection.tokens traitFragments
  rw [rows_of_entry context symbol declared, List.map_append, List.map_flatMap, List.map_flatMap,
    List.flatMap_map, List.filterMap_eq_flatMap_toList, List.flatMap_assoc]
  congr 1
  exact List.flatMap_congr fun reference _ => shownRow?_tokens context entry.1 reference

theorem rows_and_events_of_entry {context : Context}
    (level : context.config.missingOverloadFragments = .warn) (symbol : Symbol)
    {entry : Trait × List PlatformDeclaration} (declared : entry ∈ symbol.declaredTraits) :
    (TraitSection.rows ⟨entry.1, ⟨entry.2.map (context.shownEntry symbol entry.1)⟩⟩).length
      + Trace.notable (context.entryTrace symbol entry) = (symbol.listed entry.1).length := by
  unfold entryTrace
  rw [rows_of_entry context symbol declared, Trace.notable_append, notable_fragments, Nat.zero_add]
  -- listed overload by listed overload
  induction symbol.listed entry.1 with
  | nil => rfl
  | cons reference rest ih =>
    have one := row_or_event level entry.1 reference
    rw [List.filterMap_cons, List.flatMap_cons, Trace.notable_append, List.length_cons]
    cases shown : context.shownRow? entry.1 reference with
    | none =>
      rw [shown] at one
      simp only [Option.toList_none, List.length_nil] at one ⊢
      omega
    | some row =>
      rw [shown] at one
      simp only [Option.toList_some, List.length_cons, List.length_nil] at one ⊢
      omega

/-! ## Whole sections -/

/-- What the rendering of a symbol traces between the two ends of its span. -/
def bodyTrace (context : Context) (symbol : Symbol) : List Effect :=
  context.traitsTrace symbol ++ if symbol.hasDeclarations then [] else [.log .noDeclarations]

theorem bodyTrace_flat (context : Context) (symbol : Symbol) :
    ∀ effect ∈ context.bodyTrace symbol, effect.isSpan = false := by
  intro effect member
  rcases List.mem_append.mp member with traits | last
  · exact traitsTrace_flat context symbol effect traits
  · split at last
    · exact absurd last List.not_mem_nil
    · rw [List.mem_singleton.mp last]
      rfl

theorem logged_bodyTrace {context : Context} (quiet : context.IsQuiet) (symbol : Symbol) :
    Trace.logged (context.bodyTrace symbol) = context.symbolEvents symbol := by
  have traits : Trace.logged (context.traitsTrace symbol)
      = symbol.declaredTraits.flatMap (context.traitEvents symbol) := by
    rw [traitsTrace_eq, Trace.logged_flatMap]
    exact List.flatMap_congr fun entry _ => logged_entryTrace quiet symbol entry
  unfold bodyTrace symbolEvents
  rw [Trace.logged_append, traits]
  have present := declaredTraits_eq_nil_iff symbol
  cases declared : symbol.declaredTraits with
  | nil =>
    rw [present.mp declared]
    rfl
  | cons entry rest =>
    have some : symbol.hasDeclarations = true := by
      rw [← Bool.not_eq_false, ← present, declared]
      exact List.cons_ne_nil entry rest
    rw [if_pos some]
    exact List.append_nil _

theorem accounted_bodyTrace (context : Context) (symbol : Symbol) :
    Trace.accounted (context.bodyTrace symbol)
      = (context.renderedFragments symbol).countP fun fragment =>
          fragment.preciseIdentifier.isSome := by
  have traits : Trace.accounted (context.traitsTrace symbol)
      = (context.renderedFragments symbol).countP fun fragment =>
          fragment.preciseIdentifier.isSome := by
    rw [traitsTrace_eq]
    exact count_flatMap rfl rfl Trace.accounted_append (fun _ _ => List.countP_append)
      fun entry _ => accounted_entryTrace context symbol entry
  unfold bodyTrace
  rw [Trace.accounted_append, traits]
  -- that there is nothing to show is no matter of an identifier
  split <;> rfl

theorem trace_section? {context : Context} (quiet : context.IsQuiet) (symbol : Symbol) :
    (context.section? symbol).trace
      = .enter symbol.reference :: (context.bodyTrace symbol ++ [.leave]) := by
  rw [section?_eq quiet]
  rfl

/-- The events of a section carry the symbol as their span, whatever spans were open before. -/
theorem log_section? {context : Context} (quiet : context.IsQuiet) (symbol : Symbol)
    (spans : List Reference) :
    Trace.log spans (context.section? symbol).trace
      = (context.symbolEvents symbol).map fun event => ⟨event, some symbol.reference⟩ := by
  rw [trace_section? quiet, Trace.log, Trace.log_append,
    Trace.log_eq_of_flat (bodyTrace_flat context symbol), logged_bodyTrace quiet]
  exact List.append_nil _

theorem openSpans_section? {context : Context} (quiet : context.IsQuiet) (symbol : Symbol)
    (spans : List Reference) :
    Trace.openSpans spans (context.section? symbol).trace = spans := by
  rw [trace_section? quiet, Trace.openSpans, Trace.openSpans_append,
    Trace.openSpans_eq_of_flat (bodyTrace_flat context symbol)]
  rfl

theorem countP_events {context : Context} (quiet : context.IsQuiet) (symbol : Symbol)
    (p : Event → Bool) :
    (context.section? symbol).events.countP (fun entry => p entry.event)
      = (Trace.logged (context.bodyTrace symbol)).countP p := by
  unfold Run.events
  rw [log_section? quiet, logged_bodyTrace quiet, List.countP_map]
  rfl

/-- The rows of a symbol and the events that are about more than an identifier add up to the listed
overloads when no overload is passed over in silence. -/
theorem rows_and_events {context : Context}
    (level : context.config.missingOverloadFragments = .warn) {symbol : Symbol}
    (present : symbol.hasDeclarations = true) :
    ((context.shownTraits symbol).flatMap TraitSection.rows).length
      + Trace.notable (context.bodyTrace symbol)
      = (symbol.declaredTraits.flatMap fun entry => symbol.listed entry.1).length := by
  unfold bodyTrace
  rw [if_pos present, List.append_nil, shownTraits_eq, traitsTrace_eq, List.flatMap_map]
  have each := fun entry declared =>
    @rows_and_events_of_entry context level symbol entry declared
  generalize symbol.declaredTraits = entries at each ⊢
  induction entries with
  | nil => rfl
  | cons entry rest ih =>
    obtain ⟨first, others⟩ := List.forall_mem_cons.mp each
    have rest := ih others
    simp only [List.flatMap_cons, List.length_append, Trace.notable_append] at rest ⊢
    omega

/-- The log of a quiet section can be read off the symbol: trait after trait the unresolved
fragments and then what there is to say about each listed overload, or the one event that there is
nothing to show. Every event carries the symbol as its span, which is closed in the end. Reports and
unresolved fragments together are the rendered fragments that name something, and the rendered
fragments are the tokens of the result, the block of a trait counted once. At the level `warn` rows
and the other events together are the overloads listed for the traits that are shown. -/
theorem section?_logs_everything {context : Context} (quiet : context.IsQuiet) (symbol : Symbol) :
    (∀ spans, Trace.log spans (context.section? symbol).trace
        = (context.symbolEvents symbol).map fun event => ⟨event, some symbol.reference⟩)
      ∧ (∀ spans, Trace.openSpans spans (context.section? symbol).trace = spans)
      ∧ (context.section? symbol).reports.length
          + (context.section? symbol).events.countP (fun entry => entry.event.severity = .trace)
        = (context.renderedFragments symbol).countP (fun fragment =>
            fragment.preciseIdentifier.isSome)
      ∧ ∃ sections, (context.traitSections symbol).outcome = .ok sections
        ∧ sections.flatMap TraitSection.tokens
          = (context.renderedFragments symbol).map context.shownFragment
        ∧ (context.config.missingOverloadFragments = .warn → symbol.hasDeclarations = true →
            (sections.flatMap TraitSection.rows).length
                + (context.section? symbol).events.countP (fun entry =>
                    entry.event.severity ≠ .trace)
              = (symbol.declaredTraits.flatMap fun entry => symbol.listed entry.1).length) := by
  refine ⟨log_section? quiet symbol, openSpans_section? quiet symbol, ?balance,
    context.shownTraits symbol, by rw [traitSections_eq quiet], ?tokens, fun level present => ?rows⟩
  case balance =>
    have reports : (context.section? symbol).reports = Trace.reports (context.bodyTrace symbol) := by
      unfold Run.reports
      rw [trace_section? quiet]
      show Trace.reports (context.bodyTrace symbol ++ [.leave]) = _
      rw [Trace.reports_append]
      exact List.append_nil _
    rw [reports, countP_events quiet symbol fun event => decide (event.severity = .trace)]
    exact accounted_bodyTrace context symbol
  case tokens =>
    unfold renderedFragments
    rw [shownTraits_eq, List.flatMap_map, List.map_flatMap]
    exact List.flatMap_congr fun entry declared => tokens_of_entry context symbol declared
  case rows =>
    rw [countP_events quiet symbol fun event => decide (event.severity ≠ .trace)]
    exact rows_and_events level present

/-- The function in two languages names an unknown type in one of them, and in the other it lists a
bare symbol. -/
theorem section?_swap_logs_everything :
    kit.IsQuiet ∧ kit.config.missingOverloadFragments = .warn ∧ swap.hasDeclarations = true
      ∧ (kit.section? swap).events
        = [⟨.unresolvedFragment "s:Bar", some ⟨"doc://Kit/swap"⟩⟩,
          ⟨.missingFragments ⟨"doc://Kit/bare"⟩ (.language "occ"), some ⟨"doc://Kit/swap"⟩⟩]
      ∧ (kit.section? swap).reports.length + 1 = 3
      ∧ ∃ sections, (kit.traitSections swap).outcome = .ok sections
        ∧ (sections.flatMap TraitSection.rows).length + 1 = 2 := by
  have quiet : kit.IsQuiet := nofun
  have level : kit.config.missingOverloadFragments = .warn := rfl
  have present : swap.hasDeclarations = true := by decide
  obtain ⟨log, -, balance, sections, rendered, -, rows⟩ := section?_logs_everything quiet swap
  have events : (kit.section? swap).events
      = [⟨.unresolvedFragment "s:Bar", some ⟨"doc://Kit/swap"⟩⟩,
        ⟨.missingFragments ⟨"doc://Kit/bare"⟩ (.language "occ"), some ⟨"doc://Kit/swap"⟩⟩] :=
    (log []).trans rfl
  have rows := rows level present
  rw [events] at balance rows
  exact ⟨quiet, level, present, events, balance, sections, rendered, rows⟩

end Context

end DeclarationDocs
