/-!
# Catalogs

A catalog keeps its entries in strictly ascending order of a key, so it holds one entry per key
and two catalogs with the same entries are the same value. Trait maps, the nodes of a store and
the identifier index are catalogs.

Main statements: `Catalog.find?_insert` says what a look-up answers after an insertion, and
`Catalog.mem_entries_iff` says that the entries are what look-ups find.
-/

namespace DeclarationDocs

/-- A strict total order on keys. -/
class KeyOrder (κ : Type) extends LT κ where
  decideLt : DecidableLT κ
  lt_irrefl : ∀ a : κ, ¬ a < a
  lt_trans : ∀ {a b c : κ}, a < b → b < c → a < c
  eq_of_not_lt : ∀ {a b : κ}, ¬ a < b → ¬ b < a → a = b

instance KeyOrder.decidableLT {κ : Type} [KeyOrder κ] : DecidableLT κ := KeyOrder.decideLt

/-- Strings are ordered by code point, the first difference deciding. -/
instance : KeyOrder String where
  decideLt := inferInstance
  lt_irrefl := String.lt_irrefl
  lt_trans := String.lt_trans
  eq_of_not_lt := fun notLess notGreater =>
    String.le_antisymm (String.not_lt.mp notGreater) (String.not_lt.mp notLess)

@[reducible] def KeyOrder.along {α κ : Type} [KeyOrder κ] (key : α → κ)
    (injective : ∀ {a b : α}, key a = key b → a = b) : KeyOrder α where
  lt a b := key a < key b
  decideLt := fun a b => inferInstanceAs (Decidable (key a < key b))
  lt_irrefl := fun a => KeyOrder.lt_irrefl (key a)
  lt_trans := fun {_ b _} first second => KeyOrder.lt_trans (b := key b) first second
  eq_of_not_lt := fun notLess notGreater => injective (KeyOrder.eq_of_not_lt notLess notGreater)

theorem KeyOrder.ne_of_lt {κ : Type} [KeyOrder κ] {a b : κ} (less : a < b) : a ≠ b :=
  fun equal => KeyOrder.lt_irrefl b (equal ▸ less)

/-- Entries in strictly ascending order of `key`. -/
structure Catalog {α κ : Type} [KeyOrder κ] (key : α → κ) where
  entries : List α
  ascending : entries.Pairwise (fun a b => key a < key b)

namespace Catalog

variable {α κ : Type} [KeyOrder κ] {key : α → κ}

theorem ext {a b : Catalog key} (same : a.entries = b.entries) : a = b := by
  cases a; cases b; cases same; rfl

instance [DecidableEq α] : DecidableEq (Catalog key) := fun a b =>
  if same : a.entries = b.entries then isTrue (ext same)
  else isFalse fun equal => same (equal ▸ rfl)

def empty : Catalog key := ⟨[], List.Pairwise.nil⟩

instance : EmptyCollection (Catalog key) := ⟨empty⟩

instance : Inhabited (Catalog key) := ⟨empty⟩

@[simp] theorem entries_empty : (∅ : Catalog key).entries = [] := rfl

def isEmpty (catalog : Catalog key) : Bool := catalog.entries.isEmpty

def size (catalog : Catalog key) : Nat := catalog.entries.length

/-! ## Insertion -/

/-- Put an entry where its key belongs; an entry with the same key gives way. -/
def place (key : α → κ) (a : α) : List α → List α
  | [] => [a]
  | b :: rest =>
    if key b < key a then b :: place key a rest
    else if key a < key b then a :: b :: rest
    else a :: rest

theorem mem_place {a c : α} {list : List α} (member : c ∈ place key a list) :
    c = a ∨ c ∈ list := by
  induction list with
  | nil => simpa [place] using member
  | cons b rest ih =>
    simp only [place] at member
    split at member
    · rcases List.mem_cons.mp member with rfl | later
      · exact .inr List.mem_cons_self
      · exact (ih later).imp id (List.mem_cons_of_mem _)
    · split at member
      · exact (List.mem_cons.mp member)
      · exact (List.mem_cons.mp member).imp id (List.mem_cons_of_mem _)

theorem pairwise_place (a : α) {list : List α}
    (ascending : list.Pairwise (fun a b => key a < key b)) :
    (place key a list).Pairwise (fun a b => key a < key b) := by
  induction list with
  | nil => simp [place]
  | cons b rest ih =>
    obtain ⟨first, others⟩ := List.pairwise_cons.mp ascending
    simp only [place]
    split
    next before =>
      refine List.pairwise_cons.mpr ⟨fun c member => ?_, ih others⟩
      rcases mem_place member with rfl | later
      · exact before
      · exact first c later
    next notBefore =>
      split
      next after =>
        refine List.pairwise_cons.mpr ⟨fun c member => ?_, ascending⟩
        rcases List.mem_cons.mp member with rfl | later
        · exact after
        · exact KeyOrder.lt_trans after (first c later)
      next notAfter =>
        have same : key a = key b := KeyOrder.eq_of_not_lt notAfter notBefore
        exact List.pairwise_cons.mpr ⟨fun c member => same ▸ first c member, others⟩

def insert (catalog : Catalog key) (a : α) : Catalog key :=
  ⟨place key a catalog.entries, pairwise_place a catalog.ascending⟩

/-- The entry that gives way when an entry is placed. -/
def givesWay? (key : α → κ) (a : α) : List α → Option α
  | [] => none
  | b :: rest =>
    if key b < key a then givesWay? key a rest
    else if key a < key b then none
    else some b

/-- The entry that an insertion replaces. -/
def replaced? (catalog : Catalog key) (a : α) : Option α := givesWay? key a catalog.entries

/-- Only an entry that replaces none makes the list longer. -/
theorem length_place (a : α) (list : List α) :
    (place key a list).length = list.length + if (givesWay? key a list).isNone then 1 else 0 := by
  induction list with
  | nil => rfl
  | cons b rest ih =>
    simp only [place, givesWay?]
    split
    next => simp only [List.length_cons, ih, Nat.add_right_comm]
    next =>
      split
      next => rfl
      next => rfl

theorem size_insert (catalog : Catalog key) (a : α) :
    (catalog.insert a).size = catalog.size + if (catalog.replaced? a).isNone then 1 else 0 :=
  length_place a catalog.entries

/-- Insert the entries one after the other, so that the last one with a key stays. -/
def insertAll (catalog : Catalog key) (list : List α) : Catalog key :=
  list.foldl insert catalog

/-- The catalog of a list's entries, the last one with a key staying. -/
def ofList (list : List α) : Catalog key := (∅ : Catalog key).insertAll list

/-! ## Look-up -/

variable [DecidableEq κ]

def find? (catalog : Catalog key) (wanted : κ) : Option α :=
  catalog.entries.find? (fun a => key a = wanted)

@[simp] theorem find?_empty (wanted : κ) : (∅ : Catalog key).find? wanted = none := rfl

theorem key_eq_of_find? {catalog : Catalog key} {wanted : κ} {a : α}
    (found : catalog.find? wanted = some a) : key a = wanted := by
  simpa using List.find?_some found

theorem mem_of_find? {catalog : Catalog key} {wanted : κ} {a : α}
    (found : catalog.find? wanted = some a) : a ∈ catalog.entries :=
  List.mem_of_find?_eq_some found

theorem find?_place (a : α) (wanted : κ) (list : List α) :
    (place key a list).find? (fun b => key b = wanted)
      = if key a = wanted then some a else list.find? (fun b => key b = wanted) := by
  induction list with
  | nil => by_cases same : key a = wanted <;> simp [place, same]
  | cons b rest ih =>
    simp only [place]
    by_cases before : key b < key a
    · have different := KeyOrder.ne_of_lt before
      rw [if_pos before, List.find?_cons]
      by_cases atB : key b = wanted
      · have : key a ≠ wanted := fun atA => different (atB.trans atA.symm)
        simp [atB, this]
      · simp [atB, ih]
    · by_cases after : key a < key b
      · rw [if_neg before, if_pos after]
        by_cases atA : key a = wanted <;> simp [atA]
      · have same : key a = key b := KeyOrder.eq_of_not_lt after before
        rw [if_neg before, if_neg after]
        by_cases atA : key a = wanted
        · simp [atA]
        · simp [atA, ← same]

/-- After an insertion the new entry is found under its key, and all else as before. -/
theorem find?_insert (catalog : Catalog key) (a : α) (wanted : κ) :
    (catalog.insert a).find? wanted
      = if key a = wanted then some a else catalog.find? wanted :=
  find?_place a wanted catalog.entries

/-- An insertion replaces the entry to which its key led before. -/
theorem replaced?_eq_find? (catalog : Catalog key) (a : α) :
    catalog.replaced? a = catalog.find? (key a) := by
  obtain ⟨entries, ascending⟩ := catalog
  show givesWay? key a entries = entries.find? fun b => key b = key a
  induction entries with
  | nil => rfl
  | cons b rest ih =>
    obtain ⟨first, others⟩ := List.pairwise_cons.mp ascending
    simp only [givesWay?]
    split
    next before => rw [ih others, List.find?_cons_of_neg (by simpa using KeyOrder.ne_of_lt before)]
    next notBefore =>
      split
      next after =>
        -- the new key comes before all others, so it is not among them
        refine (List.find?_eq_none.mpr fun c member => ?_).symm
        have less : key a < key c := by
          rcases List.mem_cons.mp member with rfl | later
          · exact after
          · exact KeyOrder.lt_trans after (first c later)
        simpa using (KeyOrder.ne_of_lt less).symm
      next notAfter =>
        have same : key b = key a := KeyOrder.eq_of_not_lt notBefore notAfter
        rw [List.find?_cons_of_pos (by simpa using same)]

theorem find?_eq_some_of_mem {catalog : Catalog key} {a : α} (member : a ∈ catalog.entries) :
    catalog.find? (key a) = some a := by
  obtain ⟨entries, ascending⟩ := catalog
  simp only [find?] at *
  induction entries with
  | nil => cases member
  | cons b rest ih =>
    obtain ⟨first, others⟩ := List.pairwise_cons.mp ascending
    rcases List.mem_cons.mp member with rfl | later
    · simp
    · have different : key b ≠ key a := KeyOrder.ne_of_lt (first a later)
      simp [different, ih others later]

/-- An entry is in the catalog exactly when its key leads to it. -/
theorem mem_entries_iff {catalog : Catalog key} {a : α} :
    a ∈ catalog.entries ↔ catalog.find? (key a) = some a :=
  ⟨find?_eq_some_of_mem, mem_of_find?⟩

end Catalog

end DeclarationDocs
