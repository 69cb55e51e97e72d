import Mathlib.Data.List.Perm.Basic
import DeclarationDocs.Proofs.Render.Layout
import DeclarationDocs.Proofs.Render.Levels
import DeclarationDocs.Proofs.Store.Coherence

/-!
# The order of insertion

Nodes with references of their own, and symbols with identifiers of their own, may be inserted in
any order: the store is the same, and so is everything rendered from it. Only where two nodes share
a reference or an identifier does the later one decide.

Main statement: `Store.ofNodes_reproducible`.
-/

namespace DeclarationDocs

/-- Entries with a property that only one of the list can have are the same in every order. -/
theorem filter_eq_of_perm {α : Type} {R : α → α → Prop} {p : α → Bool} {list shuffled : List α}
    (reordered : list.Perm shuffled) (apart : list.Pairwise R)
    (alone : ∀ a b, p a = true → p b = true → ¬ R a b) : list.filter p = shuffled.filter p := by
  have kept := reordered.filter p
  have apart := apart.filter p
  have holds : ∀ a ∈ list.filter p, p a = true := fun a member => (List.mem_filter.mp member).2
  generalize list.filter p = found at kept apart holds ⊢
  match found with
  | [] => exact (List.nil_perm.mp kept).symm
  | [a] => exact (List.perm_singleton.mp kept.symm).symm
  | a :: b :: rest =>
    have first := holds a List.mem_cons_self
    have second := holds b (List.mem_cons_of_mem a List.mem_cons_self)
    exact absurd (List.rel_of_pairwise_cons apart List.mem_cons_self) (alone a b first second)

namespace Store

theorem index_find?_eq (store : Store) (preciseIdentifier : String) :
    store.index.find? preciseIdentifier
      = (store.resolve? preciseIdentifier).map (⟨preciseIdentifier, ·⟩) := by
  unfold resolve?
  cases found : store.index.find? preciseIdentifier with
  | none => rfl
  | some entry =>
    have same : entry.preciseIdentifier = preciseIdentifier := Catalog.key_eq_of_find? found
    rw [← same]
    rfl

/-- Two stores that answer alike are equal. -/
theorem ext_lookUp {one other : Store}
    (nodes : ∀ reference, one.node? reference = other.node? reference)
    (index : ∀ preciseIdentifier,
      one.resolve? preciseIdentifier = other.resolve? preciseIdentifier) : one = other := by
  have sameNodes : one.nodes = other.nodes := Catalog.ext_find? nodes
  have sameIndex : one.index = other.index := by
    refine Catalog.ext_find? fun preciseIdentifier => ?_
    rw [index_find?_eq, index_find?_eq, index]
  cases one; cases other; cases sameNodes; cases sameIndex; rfl

/-- Nodes that share neither references nor identifiers make the same store in every order. -/
theorem ofNodes_perm {nodes shuffled : List Node} (reordered : nodes.Perm shuffled)
    (references : (nodes.map Node.reference).Nodup)
    (identifiers : (nodes.filterMap Node.preciseIdentifier?).Nodup) :
    ofNodes nodes = ofNodes shuffled := by
  refine ext_lookUp (fun reference => ?_) (fun preciseIdentifier => ?_)
  · rw [node?_ofNodes, node?_ofNodes]
    refine congrArg List.getLast?
      (filter_eq_of_perm reordered (List.pairwise_map.mp references) ?_)
    intro one other first second distinct
    exact distinct ((of_decide_eq_true first).trans (of_decide_eq_true second).symm)
  · rw [resolve?_ofNodes, resolve?_ofNodes]
    refine congrArg (fun found => (List.getLast? found).map Node.reference)
      (filter_eq_of_perm reordered (List.pairwise_filterMap.mp identifiers) ?_)
    intro one other first second distinct
    exact distinct _ (of_decide_eq_true first) _ (of_decide_eq_true second) rfl

end Store

namespace Context

/-- The pages of a run that has a value come in the order of their symbols. -/
theorem pages_ascending {context : Context} {symbols : List Symbol}
    (ascending : symbols.Pairwise fun one other => one.reference < other.reference)
    {pages : List (Reference × Section)} (rendered : (context.pages symbols).outcome = .ok pages) :
    pages.Pairwise fun one other => one.1 < other.1 := by
  obtain ⟨quietly, quiet, same⟩ : ∃ quietly : Context, quietly.IsQuiet
      ∧ context.pages symbols = quietly.pages symbols := by
    by_cases quiet : context.IsQuiet
    · exact ⟨context, quiet, rfl⟩
    · exact ⟨_, isQuiet_warn context, eq_warn_of_ok (fun context => context.pages symbols)
        (pages_cutShort · symbols) quiet rendered⟩
  rw [same, pages_eq quiet] at rendered
  obtain rfl := Except.ok.inj rendered
  refine ascending.filterMap quietly.shownPage? ?_
  intro one other less page shown page' shown'
  obtain ⟨contents, -, rfl⟩ := Option.map_eq_some_iff.mp shown
  obtain ⟨contents', -, rfl⟩ := Option.map_eq_some_iff.mp shown'
  exact less

end Context

namespace Store

/-- Nodes that share neither references nor identifiers may be inserted in any order: every question
to the store has the same answer, and rendering its symbols is the same run at every level. Unless
the run ends with a fault, its pages come in the order of the bytes of their references. -/
theorem ofNodes_reproducible {nodes shuffled : List Node} (reordered : nodes.Perm shuffled)
    (references : (nodes.map Node.reference).Nodup)
    (identifiers : (nodes.filterMap Node.preciseIdentifier?).Nodup) :
    let one := ofNodes nodes
    let other := ofNodes shuffled
    (∀ reference, one.node? reference = other.node? reference)
      ∧ (∀ reference, one.entity reference = other.entity reference)
      ∧ (∀ reference, one.symbol? reference = other.symbol? reference)
      ∧ one.symbols = other.symbols
      ∧ one.size = other.size
      ∧ (∀ preciseIdentifier, one.resolve? preciseIdentifier = other.resolve? preciseIdentifier)
      ∧ ∀ config : Config,
        let run := (Context.ofStores one one config).pages one.symbols
        run = (Context.ofStores other other config).pages other.symbols
          ∧ (config.missingOverloadFragments ≠ .assert → ∃ pages, run.outcome = .ok pages)
          ∧ ∀ pages, run.outcome = .ok pages →
            pages.Pairwise fun page later =>
              Text.bytes page.1.text < Text.bytes later.1.text := by
  intro one other
  have same : one = other := ofNodes_perm reordered references identifiers
  rw [same]
  refine ⟨fun _ => rfl, fun _ => rfl, fun _ => rfl, rfl, rfl, fun _ => rfl, fun config => ?_⟩
  refine ⟨rfl, fun level => ?_, ?_⟩
  · have quiet : (Context.ofStores other other config).IsQuiet := level
    exact ⟨_, congrArg Run.outcome (Context.pages_eq quiet other.symbols)⟩
  · intro pages rendered
    exact (Context.pages_ascending (symbols_ascending other) rendered).imp
      (Text.lt_iff_bytes_lt _ _).mp

/-- A function, a type that it names and an article, inserted forwards and backwards. -/
theorem ofNodes_reverse_reproducible :
    let nodes := [.symbol Context.swap, Context.bar, Context.guide]
    let one := ofNodes nodes
    let other := ofNodes nodes.reverse
    nodes.Perm nodes.reverse ∧ (nodes.map Node.reference).Nodup
      ∧ (nodes.filterMap Node.preciseIdentifier?).Nodup
      ∧ one.symbols = other.symbols
      ∧ one.resolve? "s:Bar" = other.resolve? "s:Bar"
      ∧ (Context.ofStores one one .standard).pages one.symbols
        = (Context.ofStores other other .standard).pages other.symbols := by
  intro nodes one other
  have reordered : nodes.Perm nodes.reverse := (List.reverse_perm nodes).symm
  have references : (nodes.map Node.reference).Nodup := by decide
  have identifiers : (nodes.filterMap Node.preciseIdentifier?).Nodup := by decide
  obtain ⟨-, -, -, symbols, -, index, rendering⟩ :=
    ofNodes_reproducible reordered references identifiers
  exact ⟨reordered, references, identifiers, symbols, index "s:Bar", (rendering .standard).1⟩

/-- Of two symbols with one identifier the later one decides. -/
example :
    let symbol reference :=
      Node.symbol ((Symbol.bare ⟨reference⟩ .swift).withPreciseIdentifier "s:x")
    (ofNodes [symbol "a", symbol "b"]).resolve? "s:x" = some ⟨"b"⟩
      ∧ (ofNodes [symbol "b", symbol "a"]).resolve? "s:x" = some ⟨"a"⟩ :=
  ⟨rfl, rfl⟩

end Store

end DeclarationDocs
