import Mathlib.Data.List.Basic
import DeclarationDocs.Platform
import DeclarationDocs.Proofs.Text.ByteOrder

/-!
# Platforms in display order

Two unspecified platforms each precede the other, so `Platform.precedes` is no order. Letting the
platforms settle one by one arranges them nevertheless by a total order, in which the unspecified
platforms come first and the named ones follow by the bytes of their names: a platform moves up past
a neighbour only if it comes no later, and it stops only below one that comes no later. Platforms
that come no later than each other are equal, so the arrangement depends on nothing but which
platforms there are.

Main statements: `Platform.arranged_eq_of_perm`, and `Platform.arrangeInPlace?_eq` for arranging in
an array by swapping neighbours.
-/

namespace DeclarationDocs.Platform

/-! ## The order -/

/-- Unspecified platforms come no later than any other, and named ones come by the bytes of their
names. -/
def ComesNoLater : Option Platform → Option Platform → Prop
  | none, _ => True
  | some _, none => False
  | some left, some right => Text.bytes left.name ≤ Text.bytes right.name

instance : DecidableRel ComesNoLater := fun left right =>
  match left, right with
  | none, _ => isTrue trivial
  | some _, none => isFalse id
  | some left, some right => inferInstanceAs (Decidable (Text.bytes left.name ≤ Text.bytes right.name))

namespace ComesNoLater

theorem refl (platform : Option Platform) : ComesNoLater platform platform := by
  cases platform with
  | none => trivial
  | some platform => exact List.le_refl (Text.bytes platform.name)

theorem trans {a b c : Option Platform} (first : ComesNoLater a b) (second : ComesNoLater b c) :
    ComesNoLater a c := by
  cases a with
  | none => trivial
  | some a =>
    cases b with
    | none => exact first.elim
    | some b =>
      cases c with
      | none => exact second.elim
      | some c => exact List.le_trans first second

theorem total (a b : Option Platform) : ComesNoLater a b ∨ ComesNoLater b a := by
  cases a with
  | none => exact .inl trivial
  | some a =>
    cases b with
    | none => exact .inr trivial
    | some b => exact List.le_total (Text.bytes a.name) (Text.bytes b.name)

theorem antisymm {a b : Option Platform} (first : ComesNoLater a b) (second : ComesNoLater b a) :
    a = b := by
  cases a with
  | none =>
    cases b with
    | none => rfl
    | some b => exact second.elim
  | some a =>
    cases b with
    | none => exact first.elim
    | some b =>
      have notLess : ¬ a.name < b.name := by
        intro less
        exact second ((Text.lt_iff_bytes_lt _ _).mp less)
      have notGreater : ¬ b.name < a.name := by
        intro less
        exact first ((Text.lt_iff_bytes_lt _ _).mp less)
      exact congrArg some (Platform.ext (KeyOrder.eq_of_not_lt notLess notGreater))

end ComesNoLater

/-- A platform moves up only past neighbours that it comes no later than. -/
theorem comesNoLater_of_precedes {platform neighbour : Option Platform}
    (precedes : precedes platform neighbour = true) : ComesNoLater platform neighbour := by
  cases platform with
  | none => trivial
  | some platform =>
    cases neighbour with
    | none => cases precedes
    | some neighbour =>
      have less : platform.name < neighbour.name := of_decide_eq_true precedes
      exact List.le_of_lt ((Text.lt_iff_bytes_lt _ _).mp less)

/-- It stops only below a neighbour that comes no later than it. -/
theorem comesNoLater_of_not_precedes {platform neighbour : Option Platform}
    (stops : ¬ precedes platform neighbour = true) : ComesNoLater neighbour platform := by
  cases platform with
  | none => exact absurd (by cases neighbour <;> rfl) stops
  | some platform =>
    cases neighbour with
    | none => trivial
    | some neighbour =>
      intro bytes
      exact stops (decide_eq_true ((Text.lt_iff_bytes_lt _ _).mpr bytes))

/-! ## Settling -/

theorem settle_perm (platform : Option Platform) (above : List (Option Platform)) :
    (settle platform above).Perm (platform :: above) := by
  induction above with
  | nil => exact .refl _
  | cons neighbour above ih =>
    unfold settle
    split
    · exact (ih.cons neighbour).trans (List.Perm.swap platform neighbour above)
    · exact .refl _

/-- What is arranged stays arranged when another platform settles in it; read upwards, no platform
comes later than one before it. -/
theorem settle_arranged {above : List (Option Platform)} (platform : Option Platform)
    (arranged : above.Pairwise fun lower upper => ComesNoLater upper lower) :
    (settle platform above).Pairwise fun lower upper => ComesNoLater upper lower := by
  induction above with
  | nil => exact List.pairwise_singleton _ _
  | cons neighbour above ih =>
    obtain ⟨first, others⟩ := List.pairwise_cons.mp arranged
    unfold settle
    split
    next moves =>
      refine List.pairwise_cons.mpr ⟨fun upper member => ?_, ih others⟩
      rcases List.mem_cons.mp ((settle_perm platform above).mem_iff.mp member) with rfl | later
      · exact comesNoLater_of_precedes moves
      · exact first upper later
    next stops =>
      have below := comesNoLater_of_not_precedes stops
      refine List.pairwise_cons.mpr ⟨fun upper member => ?_, arranged⟩
      rcases List.mem_cons.mp member with rfl | later
      · exact below
      · exact (first upper later).trans below

theorem foldl_settle_perm (platforms sorted : List (Option Platform)) :
    (platforms.foldl (fun sorted platform => settle platform sorted) sorted).Perm
      (platforms ++ sorted) := by
  induction platforms generalizing sorted with
  | nil => exact .refl _
  | cons platform rest ih =>
    have moved : (rest ++ settle platform sorted).Perm (rest ++ platform :: sorted) :=
      (settle_perm platform sorted).append_left rest
    exact (ih _).trans (moved.trans List.perm_middle)

theorem foldl_settle_arranged (platforms : List (Option Platform))
    {sorted : List (Option Platform)}
    (arranged : sorted.Pairwise fun lower upper => ComesNoLater upper lower) :
    (platforms.foldl (fun sorted platform => settle platform sorted) sorted).Pairwise
      fun lower upper => ComesNoLater upper lower := by
  induction platforms generalizing sorted with
  | nil => exact arranged
  | cons platform rest ih => exact ih (settle_arranged platform arranged)

/-! ## The arrangement -/

theorem arranged_perm (platforms : List (Option Platform)) :
    (arranged platforms).Perm platforms := by
  have settled := foldl_settle_perm platforms []
  rw [List.append_nil] at settled
  exact (List.reverse_perm _).trans settled

theorem arranged_pairwise (platforms : List (Option Platform)) :
    (arranged platforms).Pairwise ComesNoLater :=
  List.pairwise_reverse.mpr (foldl_settle_arranged platforms List.Pairwise.nil)

/-- There is only one way to put platforms in order. -/
theorem eq_arranged {platforms ordered : List (Option Platform)} (same : ordered.Perm platforms)
    (pairwise : ordered.Pairwise ComesNoLater) : ordered = arranged platforms :=
  List.Perm.eq_of_pairwise (fun _ _ _ _ first second => ComesNoLater.antisymm first second)
    pairwise (arranged_pairwise platforms) (same.trans (arranged_perm platforms).symm)

theorem arranged_eq_of_perm {platforms shuffled : List (Option Platform)}
    (reordered : platforms.Perm shuffled) : arranged platforms = arranged shuffled :=
  eq_arranged ((arranged_perm platforms).trans reordered) (arranged_pairwise platforms)

theorem arranged_arranged (platforms : List (Option Platform)) :
    arranged (arranged platforms) = arranged platforms :=
  arranged_eq_of_perm (arranged_perm platforms)

/-- The arrangement is what sorting by the total order gives. -/
theorem arranged_eq_mergeSort (platforms : List (Option Platform)) :
    arranged platforms
      = platforms.mergeSort fun left right => decide (ComesNoLater left right) := by
  refine (eq_arranged (List.mergeSort_perm _ _) ?_).symm
  refine (List.pairwise_mergeSort ?_ ?_ platforms).imp of_decide_eq_true
  · intro a b c first second
    exact decide_eq_true ((of_decide_eq_true first).trans (of_decide_eq_true second))
  · intro a b
    rw [Bool.or_eq_true, decide_eq_true_eq, decide_eq_true_eq]
    exact ComesNoLater.total a b

/-- The named platforms among the given ones, by the bytes of their names. -/
def named (platforms : List (Option Platform)) : List Platform :=
  (platforms.filterMap id).mergeSort fun left right =>
    decide (Text.bytes left.name ≤ Text.bytes right.name)

theorem named_perm (platforms : List (Option Platform)) :
    (named platforms).Perm (platforms.filterMap id) :=
  List.mergeSort_perm _ _

theorem named_pairwise (platforms : List (Option Platform)) :
    (named platforms).Pairwise fun left right => Text.bytes left.name ≤ Text.bytes right.name := by
  refine (List.pairwise_mergeSort ?_ ?_ (platforms.filterMap id)).imp of_decide_eq_true
  · intro a b c first second
    exact decide_eq_true (List.le_trans (of_decide_eq_true first) (of_decide_eq_true second))
  · intro a b
    rw [Bool.or_eq_true, decide_eq_true_eq, decide_eq_true_eq]
    exact List.le_total _ _

/-- Platforms are the unspecified and the named ones among them, up to their order. -/
theorem perm_replicate_append (platforms : List (Option Platform)) :
    (List.replicate (platforms.count none) none ++ (platforms.filterMap id).map some).Perm
      platforms := by
  induction platforms with
  | nil => exact .refl _
  | cons platform rest ih =>
    cases platform with
    | none =>
      rw [List.count_cons_self, List.replicate_succ, List.filterMap_cons_none rfl]
      exact ih.cons none
    | some platform =>
      have kept : (some platform :: rest).filterMap id = platform :: rest.filterMap id := rfl
      rw [List.count_cons_of_ne (by simp), kept, List.map_cons]
      exact List.perm_middle.trans (ih.cons _)

/-- The unspecified platforms come first, as many as were given, and the named ones follow. -/
theorem arranged_eq_append (platforms : List (Option Platform)) :
    arranged platforms
      = List.replicate (platforms.count none) none ++ (named platforms).map some := by
  refine (eq_arranged ?_ ?_).symm
  · exact (((named_perm platforms).map some).append_left _).trans (perm_replicate_append platforms)
  · refine List.pairwise_append.mpr ⟨?_, ?_, ?_⟩
    · exact List.pairwise_replicate.mpr (.inr trivial)
    · exact List.pairwise_map.mpr (named_pairwise platforms)
    · intro unspecified member platform _
      obtain rfl := List.eq_of_mem_replicate member
      trivial

/-! ## Arranging in place -/

/-- Swap the platform at a position with its left neighbours as long as it precedes them. There is
no result if a position is read at which nothing stands. -/
def swapUp? (platforms : Array (Option Platform)) : Nat → Option (Array (Option Platform))
  | 0 => some platforms
  | position + 1 => do
    let platform ← platforms[position + 1]?
    let neighbour ← platforms[position]?
    if precedes platform neighbour then
      swapUp? (platforms.swapIfInBounds (position + 1) position) position
    else return platforms

/-- Arrange platforms in an array: from the second position on, the platform at each position is
swapped up among those before it. -/
def arrangeInPlace? (platforms : List (Option Platform)) : Option (List (Option Platform)) :=
  ((List.range' 1 (platforms.length - 1)).foldlM swapUp? platforms.toArray).map Array.toList

theorem swapIfInBounds_neighbours {α : Type} (front back : List α) (a b : α) :
    (front ++ a :: b :: back).toArray.swapIfInBounds (front.length + 1) front.length
      = (front ++ b :: a :: back).toArray := by
  apply Array.ext
  · simp
  · intro i inBounds _
    rw [Array.getElem_swapIfInBounds]
    grind

/-- Swapping a platform up in the array is settling it among the platforms before it. -/
theorem swapUp?_eq (platform : Option Platform) (above behind : List (Option Platform)) :
    swapUp? (above.reverse ++ platform :: behind).toArray above.length
      = some ((settle platform above).reverse ++ behind).toArray := by
  induction above generalizing behind with
  | nil => rfl
  | cons neighbour above ih =>
    have placed : (neighbour :: above).reverse ++ platform :: behind
        = above.reverse ++ neighbour :: platform :: behind := by simp
    have there : (above.reverse ++ neighbour :: platform :: behind).toArray[above.length + 1]?
        = some platform := by simp
    have beside : (above.reverse ++ neighbour :: platform :: behind).toArray[above.length]?
        = some neighbour := by simp
    rw [placed, List.length_cons, swapUp?, there, Option.bind_eq_bind, Option.bind_some, beside,
      Option.bind_some, settle]
    split
    · -- the neighbour is now behind the platform, and the platform goes on among the rest
      have swapped := swapIfInBounds_neighbours above.reverse behind neighbour platform
      rw [List.length_reverse] at swapped
      rw [swapped, ih]
      simp
    · simp

theorem foldlM_swapUp?_eq (sorted rest : List (Option Platform)) :
    (List.range' sorted.length rest.length).foldlM swapUp? (sorted.reverse ++ rest).toArray
      = some (rest.foldl (fun sorted platform => settle platform sorted) sorted).reverse.toArray := by
  induction rest generalizing sorted with
  | nil => simp
  | cons platform rest ih =>
    have longer : (settle platform sorted).length = sorted.length + 1 :=
      (settle_perm platform sorted).length_eq
    rw [List.length_cons, List.range'_succ, List.foldlM_cons, swapUp?_eq, Option.bind_eq_bind,
      Option.bind_some, ← longer]
    exact ih (settle platform sorted)

/-- Arranging in place reads no position beyond the ends of the array and gives the arrangement. -/
theorem arrangeInPlace?_eq (platforms : List (Option Platform)) :
    arrangeInPlace? platforms = some (arranged platforms) := by
  unfold arrangeInPlace? arranged
  cases platforms with
  | nil => rfl
  | cons platform rest =>
    have settled := foldlM_swapUp?_eq [platform] rest
    rw [List.length_singleton, List.reverse_singleton, List.singleton_append] at settled
    rw [List.length_cons, Nat.add_sub_cancel, settled, Option.map_some]
    rfl

end DeclarationDocs.Platform
