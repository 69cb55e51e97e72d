import DeclarationDocs.Catalog

/-!
# Source languages and traits

An entity may be presented in several languages. What differs between the presentations is stored
by trait: the fallback trait, which belongs to no language in particular, or the trait of one
interface language.
-/

namespace DeclarationDocs

/-- A programming language in which entities are declared. -/
structure SourceLanguage where
  /-- The identifier written into rendered entries. -/
  id : String
  /-- The name for readers. -/
  name : String
deriving DecidableEq, Inhabited

namespace SourceLanguage

def swift : SourceLanguage := ⟨"swift", "Swift"⟩

def objectiveC : SourceLanguage := ⟨"occ", "Objective-C"⟩

/-- The language with an identifier: a well-known one, or one named after its identifier. -/
def ofId (id : String) : SourceLanguage :=
  if id = "swift" then swift
  else if id ∈ ["occ", "objc", "objective-c"] then objectiveC
  else ⟨id, id⟩

def standard : SourceLanguage := swift

end SourceLanguage

/-- One presentation of an entity. The trait of the language with an empty identifier is not the
fallback trait, although both are written as the empty text. -/
inductive Trait where
  | fallback
  | language (id : String)
deriving DecidableEq, Inhabited

namespace Trait

/-- The language a trait names. -/
def interfaceLanguage? : Trait → Option String
  | fallback => none
  | language id => some id

/-- Whether the trait belongs to no language. -/
def isFallback (trait : Trait) : Bool := trait.interfaceLanguage?.isNone

def text : Trait → String
  | fallback => ""
  | language id => id

/-- The trait a text stands for; no text stands for the language with the empty identifier. -/
def ofText (text : String) : Trait :=
  if text.isEmpty then fallback else language text

def display : Trait → String
  | fallback => "<fallback>"
  | language id => id

/-- The fallback trait comes first, then the languages by identifier. -/
def precedes : Trait → Trait → Prop
  | fallback, fallback => False
  | fallback, language _ => True
  | language _, fallback => False
  | language left, language right => left < right

instance : DecidableRel precedes := fun left right =>
  match left, right with
  | fallback, fallback => isFalse id
  | fallback, language _ => isTrue trivial
  | language _, fallback => isFalse id
  | language left, language right => inferInstanceAs (Decidable (left < right))

instance : KeyOrder Trait where
  lt := precedes
  decideLt := fun left right => inferInstanceAs (Decidable (precedes left right))
  lt_irrefl := by
    rintro (_ | id)
    · exact id
    · exact KeyOrder.lt_irrefl id
  lt_trans := by
    rintro (_ | a) (_ | b) (_ | c) first second
    case fallback.fallback.fallback => exact first
    case fallback.language.fallback => exact second
    case language.fallback.fallback => exact first
    case language.fallback.language => exact first.elim
    case language.language.fallback => exact second
    case language.language.language => exact KeyOrder.lt_trans (b := b) first second
    all_goals exact trivial
  eq_of_not_lt := by
    rintro (_ | a) (_ | b) notLess notGreater
    · rfl
    · exact absurd trivial notLess
    · exact absurd trivial notGreater
    · exact congrArg language (KeyOrder.eq_of_not_lt notLess notGreater)

def sorted (traits : List Trait) : List Trait :=
  traits.mergeSort fun left right => decide ¬ right < left

@[simp] theorem text_ofText (text : String) : (ofText text).text = text := by
  unfold ofText
  split
  next blank => simpa [Trait.text] using (String.isEmpty_iff.mp blank).symm
  next => rfl

/-- A trait comes back from its text unless it is the language with the empty identifier. -/
theorem ofText_text_eq_iff (trait : Trait) : ofText trait.text = trait ↔ trait ≠ language "" := by
  cases trait with
  | fallback => simp [Trait.text, ofText]
  | language id =>
    by_cases blank : id = ""
    · simp [Trait.text, ofText, blank]
    · simp [Trait.text, ofText, blank, String.isEmpty_iff]

end Trait

abbrev TraitMap.key {α : Type} (entry : Trait × α) : Trait := entry.1

abbrev TraitMap (α : Type) := Catalog (TraitMap.key (α := α))

namespace TraitMap

def get? {α : Type} (map : TraitMap α) (trait : Trait) : Option α :=
  (map.find? trait).map Prod.snd

/-- Store data for a trait in place of what was stored for it. -/
def put {α : Type} (map : TraitMap α) (trait : Trait) (value : α) : TraitMap α :=
  map.insert (trait, value)

theorem get?_put {α : Type} (map : TraitMap α) (trait wanted : Trait) (value : α) :
    (map.put trait value).get? wanted
      = if trait = wanted then some value else map.get? wanted := by
  simp only [get?, put, Catalog.find?_insert, TraitMap.key]
  split <;> rfl

end TraitMap

end DeclarationDocs
