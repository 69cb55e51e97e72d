import DeclarationDocs.Trait
import DeclarationDocs.Reference
import DeclarationDocs.Store

/-!
# Rendering runs

Rendering computes a value and, on the way, reports the references it links to, writes events to the
log, and opens and closes a span around each symbol. A run is the value together with the trace of
these effects in the order in which they happened. A run may also end with a fault; its trace is
then what happened before.

Main statements: `Run.trace_bind` says how traces are joined, and `Run` obeys the laws of a monad.
-/

namespace DeclarationDocs

/-- How much a log message matters. -/
inductive Severity where
  | trace
  | debug
  | warn
deriving DecidableEq, Inhabited

def Severity.name : Severity → String
  | .trace => "TRACE"
  | .debug => "DEBUG"
  | .warn => "WARN"

/-- What is written to the log. -/
inductive Event where
  /-- A fragment names an entity that the index does not know. -/
  | unresolvedFragment (preciseIdentifier : String)
  /-- A listed overload cannot be looked up. -/
  | unresolvedOverload (reference : Reference) (error : StoreError)
  /-- A listed overload is an article. -/
  | notASymbol (reference : Reference)
  /-- A listed overload has no declaration for the trait. -/
  | missingFragments (reference : Reference) (trait : Trait)
  /-- A symbol has nothing to show. -/
  | noDeclarations
deriving DecidableEq, Inhabited

namespace Event

def severity : Event → Severity
  | .unresolvedFragment _ => .trace
  | .unresolvedOverload .. => .debug
  | .notASymbol _ => .debug
  | .missingFragments .. => .warn
  | .noDeclarations => .debug

def message : Event → String
  | .unresolvedFragment _ => "unresolved declaration fragment"
  | .unresolvedOverload .. => "skipping unresolved overload"
  | .notASymbol _ => "skipping overload that is not a symbol"
  | .missingFragments .. => "overloaded symbol has no declaration fragments"
  | .noDeclarations => "symbol has no declarations"

def fields : Event → List (String × String)
  | .unresolvedFragment preciseIdentifier => [("precise_identifier", preciseIdentifier)]
  | .unresolvedOverload reference error =>
    [("reference", reference.text), ("error", error.message)]
  | .notASymbol reference => [("reference", reference.text)]
  | .missingFragments reference trait =>
    [("reference", reference.text), ("variant", trait.display)]
  | .noDeclarations => []

end Event

/-- What a run does besides computing its value. -/
inductive Effect where
  /-- A link to the reference was made. -/
  | report (reference : Reference)
  | log (event : Event)
  /-- The work on a symbol begins. -/
  | enter (symbol : Reference)
  /-- The work on the symbol entered last ends. -/
  | leave
deriving DecidableEq, Inhabited

/-- Why a run ends without a value: a listed overload has no declaration for the trait. -/
structure Fault where
  reference : Reference
  trait : Trait
deriving DecidableEq, Inhabited

def Fault.message (fault : Fault) : String :=
  "overloaded symbol " ++ fault.reference.text ++ " has no declaration fragments for "
    ++ fault.trait.display

/-! ## Reading a trace -/

/-- An event and the symbol that was being worked on. -/
structure LogEntry where
  event : Event
  span : Option Reference
deriving DecidableEq, Inhabited

namespace Trace

def reports (trace : List Effect) : List Reference :=
  trace.filterMap fun
    | .report reference => some reference
    | _ => none

/-- The symbols entered and not yet left after a trace, the innermost first. -/
def openSpans (spans : List Reference) : List Effect → List Reference
  | [] => spans
  | .enter symbol :: rest => openSpans (symbol :: spans) rest
  | .leave :: rest => openSpans spans.tail rest
  | _ :: rest => openSpans spans rest

def log (spans : List Reference) : List Effect → List LogEntry
  | [] => []
  | .log event :: rest => ⟨event, spans.head?⟩ :: log spans rest
  | .enter symbol :: rest => log (symbol :: spans) rest
  | .leave :: rest => log spans.tail rest
  | .report _ :: rest => log spans rest

@[simp] theorem reports_append (first second : List Effect) :
    reports (first ++ second) = reports first ++ reports second :=
  List.filterMap_append

theorem openSpans_append (spans : List Reference) (first second : List Effect) :
    openSpans spans (first ++ second) = openSpans (openSpans spans first) second := by
  fun_induction openSpans spans first <;> simp_all [openSpans]

theorem log_append (spans : List Reference) (first second : List Effect) :
    log spans (first ++ second) = log spans first ++ log (openSpans spans first) second := by
  fun_induction log spans first <;> simp_all [log, openSpans]

end Trace

/-! ## Runs -/

/-- A computation with its effects: its value, or the fault that ended it, and what it did. -/
structure Run (α : Type) where
  outcome : Except Fault α
  trace : List Effect

namespace Run

variable {α β γ : Type}

def done (value : α) : Run α := ⟨.ok value, []⟩

/-- Go on with the value of a run; after a fault there is nothing to go on with. -/
def andThen (first : Run α) (next : α → Run β) : Run β :=
  match first.outcome with
  | .ok value => ⟨(next value).outcome, first.trace ++ (next value).trace⟩
  | .error fault => ⟨.error fault, first.trace⟩

instance : Monad Run where
  pure := done
  bind := andThen

def effect (effect : Effect) : Run Unit := ⟨.ok (), [effect]⟩

def report (reference : Reference) : Run Unit := effect (.report reference)

def log (event : Event) : Run Unit := effect (.log event)

def fail (fault : Fault) : Run α := ⟨.error fault, []⟩

/-- Work on a symbol. The span is closed also when the work ends with a fault. -/
def within (symbol : Reference) (work : Run α) : Run α :=
  ⟨work.outcome, .enter symbol :: work.trace ++ [.leave]⟩

def reports (run : Run α) : List Reference := Trace.reports run.trace

def events (run : Run α) : List LogEntry := Trace.log [] run.trace

/-- What comes second in a run is traced behind what comes first, if the first part has a value. -/
theorem trace_bind (first : Run α) (next : α → Run β) :
    (first >>= next).trace = first.trace ++ match first.outcome with
      | .ok value => (next value).trace
      | .error _ => [] := by
  simp only [bind, andThen]
  split <;> simp

/-- A run has the outcome of its second part, or the fault of its first. -/
theorem outcome_bind (first : Run α) (next : α → Run β) :
    (first >>= next).outcome = first.outcome.bind fun value => (next value).outcome := by
  simp only [bind, andThen]
  cases first.outcome <;> rfl

theorem ext {first second : Run α} (outcome : first.outcome = second.outcome)
    (trace : first.trace = second.trace) : first = second := by
  cases first; cases second; cases outcome; cases trace; rfl

theorem id_map (run : Run α) : id <$> run = run := by
  obtain ⟨outcome, trace⟩ := run
  cases outcome with
  | ok value => exact ext rfl (List.append_nil trace)
  | error fault => rfl

theorem pure_bind (value : α) (next : α → Run β) : pure value >>= next = next value := rfl

theorem bind_assoc (first : Run α) (second : α → Run β) (third : β → Run γ) :
    first >>= second >>= third = first >>= fun value => second value >>= third := by
  refine ext ?_ ?_
  · simp only [outcome_bind]
    cases first.outcome <;> rfl
  · simp only [trace_bind, outcome_bind]
    cases first.outcome with
    | ok value => simp [Except.bind]
    | error fault => simp [Except.bind]

instance : LawfulMonad Run := LawfulMonad.mk' Run id_map pure_bind bind_assoc

end Run

end DeclarationDocs
