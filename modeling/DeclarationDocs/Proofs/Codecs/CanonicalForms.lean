import DeclarationDocs.Codecs.Declaration
import DeclarationDocs.Node
import DeclarationDocs.Proofs.Catalog
import DeclarationDocs.Proofs.Json.Laws

/-!
# Canonical forms

The language with the empty identifier is written as the empty text and so is the fallback trait, as
which it comes back. A value without that language is proper. Its canonical form is what is left when
the fallback trait has taken over what is stored for that language.

Main statement: `TraitMap.restores`. The members of a trait map are read into its canonical form.
-/

namespace DeclarationDocs

open Json

/-! ## Traits -/

namespace Trait

/-- Whether a trait has a text of its own. -/
def IsProper (trait : Trait) : Prop := trait ≠ language ""

/-- The trait that a trait is read back as. -/
def canonical (trait : Trait) : Trait := if trait = language "" then fallback else trait

theorem ofText_text (trait : Trait) : ofText trait.text = trait.canonical := by
  by_cases blank : trait = language ""
  · subst blank
    rfl
  · rw [canonical, if_neg blank]
    exact (ofText_text_eq_iff trait).mpr blank

theorem isProper_ofText (text : String) : (ofText text).IsProper := by
  intro blank
  have same : text = "" := by
    have written := text_ofText text
    rw [blank] at written
    exact written.symm
  subst same
  cases blank

theorem canonical_of_isProper {trait : Trait} (proper : trait.IsProper) :
    trait.canonical = trait :=
  if_neg proper

theorem isProper_canonical (trait : Trait) : trait.canonical.IsProper :=
  ofText_text trait ▸ isProper_ofText trait.text

theorem canonical_eq_iff (trait : Trait) : trait.canonical = trait ↔ trait.IsProper :=
  ⟨fun same => same ▸ trait.isProper_canonical, canonical_of_isProper⟩

theorem restores (depth : Nat) : codec.Restores canonical depth :=
  Codec.along_restores (Codec.text_returns depth) ofText text canonical ofText_text
    fun content => canonical_of_isProper (isProper_ofText content)

end Trait

/-! ## Trait maps -/

namespace TraitMap

variable {α : Type}

/-- Whether nothing is stored for the language with the empty identifier. -/
def IsProper (map : TraitMap α) : Prop := map.get? (.language "") = none

/-- What is stored for the language with the empty identifier is stored for the fallback trait, in
place of what the map has there. -/
def canonical (map : TraitMap α) : TraitMap α :=
  match map.get? (.language "") with
  | some value => TraitMap.put (map.without (.language "")) .fallback value
  | none => map

theorem canonical_of_isProper {map : TraitMap α} (proper : map.IsProper) : map.canonical = map := by
  unfold canonical
  rw [proper]

theorem get?_canonical (map : TraitMap α) (trait : Trait) :
    map.canonical.get? trait = match trait with
      | .fallback => (map.get? (.language "")).or (map.get? .fallback)
      | .language id => if id = "" then none else map.get? (.language id) := by
  unfold canonical
  cases blank : map.get? (.language "") with
  | none =>
    -- the map is its own canonical form
    cases trait with
    | fallback => rfl
    | language id =>
      by_cases empty : id = ""
      · subst empty
        exact blank
      · exact (if_neg empty).symm
  | some value =>
    rw [get?_put, get?_without]
    cases trait with
    | fallback => rfl
    | language id =>
      rw [if_neg (fun same => nomatch same)]
      simp only [Trait.language.injEq]

theorem isProper_canonical (map : TraitMap α) : map.canonical.IsProper := by
  rw [IsProper, get?_canonical]
  rfl

theorem canonical_eq_iff (map : TraitMap α) : map.canonical = map ↔ map.IsProper :=
  ⟨fun same => same ▸ map.isProper_canonical, canonical_of_isProper⟩

/-- Store the entries of a list under the canonical forms of their traits. -/
def putAll (map : TraitMap α) (entries : List (Trait × α)) : TraitMap α :=
  entries.foldl (fun map entry => map.put entry.1.canonical entry.2) map

/-- What the entries of a list hold for a trait. -/
def lookUp? (entries : List (Trait × α)) (trait : Trait) : Option α :=
  (entries.find? fun entry => entry.1 = trait).map Prod.snd

theorem lookUp?_cons (entry : Trait × α) (entries : List (Trait × α)) (trait : Trait) :
    lookUp? (entry :: entries) trait
      = if entry.1 = trait then some entry.2 else lookUp? entries trait := by
  by_cases same : entry.1 = trait <;> simp [lookUp?, same]

/-- Behind an entry of an ascending list nothing is held for a trait that does not come later. -/
theorem lookUp?_eq_none {entry : Trait × α} {entries : List (Trait × α)} {trait : Trait}
    (first : ∀ later ∈ entries, entry.1 < later.1) (notLater : ¬ entry.1 < trait) :
    lookUp? entries trait = none := by
  rw [lookUp?, List.find?_eq_none.mpr]
  · rfl
  · intro later member
    simp only [decide_eq_true_eq]
    rintro rfl
    exact notLater (first later member)

theorem get?_putAll_fallback (map : TraitMap α) {entries : List (Trait × α)}
    (ascending : entries.Pairwise fun a b => a.1 < b.1) :
    (map.putAll entries).get? .fallback
      = ((lookUp? entries (.language "")).or (lookUp? entries .fallback)).or
          (map.get? .fallback) := by
  induction entries generalizing map with
  | nil => rfl
  | cons entry entries ih =>
    obtain ⟨first, others⟩ := List.pairwise_cons.mp ascending
    have step : (map.putAll (entry :: entries)).get? .fallback
        = ((lookUp? entries (.language "")).or (lookUp? entries .fallback)).or
          (if entry.1.canonical = .fallback then some entry.2 else map.get? .fallback) := by
      rw [← get?_put]
      exact ih _ others
    have none : ¬ entry.1 < .fallback := by cases entry.1 <;> exact id
    -- an entry of the blank language comes behind that of the fallback trait and replaces it
    rw [step, lookUp?_cons, lookUp?_cons, lookUp?_eq_none first none, Option.or_none]
    rcases entry with ⟨_ | id, value⟩
    case fallback =>
      show _ = ((lookUp? entries (.language "")).or (some value)).or _
      rw [Option.or_assoc]
      rfl
    case language =>
      by_cases blank : id = ""
      · subst blank
        rw [lookUp?_eq_none first (KeyOrder.lt_irrefl _)]
        rfl
      · have other : Trait.language id ≠ .language "" := by
          intro same
          exact blank (Trait.language.inj same)
        rw [Trait.canonical, if_neg other, if_neg (fun same => nomatch same), if_neg other,
          if_neg (fun same => nomatch same), Option.or_none]

theorem get?_putAll_language (map : TraitMap α) {entries : List (Trait × α)}
    (ascending : entries.Pairwise fun a b => a.1 < b.1) {id : String} (named : id ≠ "") :
    (map.putAll entries).get? (.language id)
      = (lookUp? entries (.language id)).or (map.get? (.language id)) := by
  induction entries generalizing map with
  | nil => rfl
  | cons entry entries ih =>
    obtain ⟨first, others⟩ := List.pairwise_cons.mp ascending
    have step : (map.putAll (entry :: entries)).get? (.language id)
        = (lookUp? entries (.language id)).or
          (if entry.1.canonical = .language id then some entry.2
            else map.get? (.language id)) := by
      rw [← get?_put]
      exact ih _ others
    rw [step, lookUp?_cons]
    by_cases same : entry.1 = .language id
    · have proper : entry.1.IsProper := by
        intro blank
        exact named (Trait.language.inj (same.symm.trans blank))
      rw [Trait.canonical_of_isProper proper, if_pos same, if_pos same,
        lookUp?_eq_none first (same ▸ KeyOrder.lt_irrefl _)]
      rfl
    · have other : entry.1.canonical ≠ .language id := by
        unfold Trait.canonical
        split
        next =>
          intro equal
          cases equal
        next => exact same
      rw [if_neg other, if_neg same]

theorem isProper_empty : (∅ : TraitMap α).IsProper := rfl

theorem isProper_put {map : TraitMap α} (proper : map.IsProper) {trait : Trait}
    (named : trait.IsProper) (value : α) : (map.put trait value).IsProper := by
  rw [IsProper, get?_put, if_neg named]
  exact proper

theorem isProper_putAll {map : TraitMap α} (proper : map.IsProper) (entries : List (Trait × α)) :
    (map.putAll entries).IsProper := by
  induction entries generalizing map with
  | nil => exact proper
  | cons entry entries ih => exact ih (isProper_put proper entry.1.isProper_canonical entry.2)

/-- Storing the entries of a map one after the other gives its canonical form. -/
theorem putAll_entries (map : TraitMap α) :
    (∅ : TraitMap α).putAll map.entries = map.canonical := by
  refine ext_get? fun trait => ?_
  rw [get?_canonical]
  cases trait with
  | fallback =>
    rw [get?_putAll_fallback _ map.ascending]
    exact Option.or_none
  | language id =>
    by_cases blank : id = ""
    · subst blank
      exact isProper_putAll isProper_empty map.entries
    · rw [get?_putAll_language _ map.ascending blank]
      exact Option.or_none.trans (if_neg blank).symm

/-! ## The members of a trait map -/

theorem readMembers_written {codec : Codec α} {depth : Nat} (law : codec.Returns depth)
    (source : Source) (entries : List (Trait × α)) (map : TraitMap α) :
    readMembers codec source
        (Value.memberOutlines (entries.map fun (trait, value) => (trait.text, codec.encode value)))
        map
      = .ok (map.putAll entries) := by
  induction entries generalizing map with
  | nil => rfl
  | cons entry entries ih =>
    rw [List.map_cons, Value.memberOutlines, readMembers, law.decode_encode, Trait.ofText_text]
    exact ih _

theorem isProper_of_readMembers {codec : Codec α} {source : Source}
    {members : List (Key × Outline)} {map read : TraitMap α} (proper : map.IsProper)
    (done : readMembers codec source members map = .ok read) : read.IsProper := by
  induction members generalizing map with
  | nil => exact Except.ok.inj done ▸ proper
  | cons member members ih =>
    obtain ⟨key, outline⟩ := member
    cases key with
    | unreadable => cases done
    | named name =>
      obtain ⟨value, -, done⟩ := exists_of_bind_ok done
      exact ih (isProper_put proper (Trait.isProper_ofText name) value) done

theorem restores {codec : Codec α} {depth : Nat} (law : codec.Returns depth) :
    (TraitMap.codec codec).Restores canonical (depth + 1) where
  within map := by
    refine .object ?_
    intro member listed
    obtain ⟨entry, -, rfl⟩ := List.mem_map.mp listed
    exact law.within entry.2
  decode_encode source map := by
    show (readMembers codec source (Value.memberOutlines _) ∅ >>= _) = _
    rw [readMembers_written law, putAll_entries]
    rfl
  canonical_of_yields map := by
    rintro ⟨source, outline, done⟩
    cases outline with
    | object members closed =>
      obtain ⟨read, first, done⟩ := exists_of_bind_ok done
      cases closed with
      | false => cases done
      | true =>
        obtain rfl := Except.ok.inj done
        exact canonical_of_isProper (isProper_of_readMembers isProper_empty first)
    | null | boolean | number | text | array | broken => cases done

end TraitMap

/-! ## Symbols and nodes -/

namespace Symbol

/-- Whether nothing is stored for the language with the empty identifier. -/
def IsProper (symbol : Symbol) : Prop :=
  symbol.declarationVariants.IsProper ∧ symbol.overloadsVariants.IsProper

/-- The symbol that a symbol is read back as. -/
def canonical (symbol : Symbol) : Symbol :=
  { symbol with
    declarationVariants := symbol.declarationVariants.canonical
    overloadsVariants := symbol.overloadsVariants.canonical }

theorem canonical_eq_iff (symbol : Symbol) : symbol.canonical = symbol ↔ symbol.IsProper := by
  rw [IsProper, ← TraitMap.canonical_eq_iff, ← TraitMap.canonical_eq_iff]
  constructor
  · intro same
    exact ⟨congrArg declarationVariants same, congrArg overloadsVariants same⟩
  · rintro ⟨declarations, overloads⟩
    rw [canonical, declarations, overloads]

end Symbol

namespace Node

/-- Whether nothing is stored for the language with the empty identifier. -/
def IsProper : Node → Prop
  | .symbol documented => documented.IsProper
  | .article _ => True

/-- The node that a node is read back as. -/
def canonical : Node → Node
  | .symbol documented => .symbol documented.canonical
  | .article page => .article page

theorem canonical_eq_iff (node : Node) : node.canonical = node ↔ node.IsProper := by
  cases node with
  | symbol documented =>
    rw [canonical, Node.symbol.injEq]
    exact documented.canonical_eq_iff
  | article page => exact ⟨fun _ => trivial, fun _ => rfl⟩

theorem map_canonical_eq_iff (nodes : List Node) :
    nodes.map canonical = nodes ↔ ∀ node ∈ nodes, node.IsProper := by
  induction nodes with
  | nil => simp only [List.map_nil, List.not_mem_nil, false_imp_iff, implies_true]
  | cons node nodes ih =>
    rw [List.map_cons, List.cons.injEq, List.forall_mem_cons, node.canonical_eq_iff, ih]

end Node

end DeclarationDocs
