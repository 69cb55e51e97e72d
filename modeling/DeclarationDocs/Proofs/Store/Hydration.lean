import DeclarationDocs.Proofs.Codecs.StoredNodes
import DeclarationDocs.Proofs.Json.Assembly
import DeclarationDocs.Proofs.Store.Coherence

/-!
# Filling a store from an array

The text of an array of nodes may be put together from texts, one for each node. A store is read from
it when a node is read from every text on its own, and holds those nodes, inserted in order. When
some text is refused on its own, no store is read, and the complaint is the one about the first such
text.

Main statement: `Store.read_arrayText`.
-/

namespace DeclarationDocs

open Json

/-- The text says a value that can be read completely and has containers at most 100 deep. -/
def Json.IsWellFormed (text : String) : Prop :=
  ∃ outline, IsTextOf text outline ∧ outline.fits 100 = true

namespace Node

/-! ## Elements on their own -/

theorem read_of_isTextOf {text : String} {outline : Outline} (written : IsTextOf text outline)
    (fitting : outline.fits 100 = true) : codec.read text = decode 100 outline := by
  rw [codec.read_of_isTextOf written]
  exact decode_of_fits (by decide) fitting

/-- A text that says something is refused for what it says. -/
theorem exists_problem_of_read {text : String} (wellFormed : IsWellFormed text) {error : ReadError}
    (refused : codec.read text = .error error) : ∃ problem, error = .content problem := by
  obtain ⟨outline, written, fitting⟩ := wellFormed
  rw [read_of_isTextOf written fitting] at refused
  cases error with
  | malformed => exact absurd refused (decode_ne_malformed fitting)
  | content problem => exact ⟨problem, rfl⟩

/-- An element of a list is decoded as it is read on its own. -/
theorem mapM_decode_eq_mapM_read {texts : List String} {outlines : List Outline}
    (each : List.Forall₂ (fun text outline => IsTextOf text outline ∧ outline.fits 100 = true)
      texts outlines) :
    outlines.mapM (decode (deepest - 1)) = texts.mapM codec.read := by
  induction each with
  | nil => rfl
  | cons first _ ih =>
    obtain ⟨written, fitting⟩ := first
    rw [List.mapM_cons, List.mapM_cons, ih, read_of_isTextOf written fitting,
      decode_of_fits (by decide) fitting]

/-- The list is read element by element. -/
theorem listCodec_read_arrayText {texts : List String}
    (wellFormed : ∀ text ∈ texts, IsWellFormed text) :
    listCodec.read (arrayText texts) = texts.mapM codec.read := by
  obtain ⟨outlines, each⟩ : ∃ outlines, List.Forall₂
      (fun text outline => IsTextOf text outline ∧ outline.fits 100 = true) texts outlines := by
    induction texts with
    | nil => exact ⟨[], .nil⟩
    | cons text texts ih =>
      obtain ⟨⟨outline, first⟩, others⟩ := List.forall_mem_cons.mp wellFormed
      obtain ⟨outlines, each⟩ := ih others
      exact ⟨outline :: outlines, .cons first each⟩
  rw [listCodec.read_of_isTextOf (isTextOf_arrayText (each.imp fun _ _ both => both.1))]
  show outlines.mapM (decode (deepest - 1)) >>= _ = _
  rw [mapM_decode_eq_mapM_read each]
  exact bind_pure _

end Node

/-! ## The store -/

namespace Store

/-- The text of an array is read as the store of the nodes that its elements are read as on their own,
or refused for the first element that is refused on its own. -/
theorem read_arrayText {texts : List String} (wellFormed : ∀ text ∈ texts, IsWellFormed text) :
    ((∃ store, read (arrayText texts) = .ok store)
        ↔ ∀ text ∈ texts, ∃ node, Node.codec.read text = .ok node)
    ∧ (∀ nodes, List.Forall₂ (fun text node => Node.codec.read text = .ok node) texts nodes →
      read (arrayText texts) = .ok (nodes.foldl insert empty)
        ∧ ∀ reference, (nodes.foldl insert empty).node? reference
          = (nodes.filter (·.reference = reference)).getLast?)
    ∧ ∀ error, read (arrayText texts) = .error error
      ↔ ∃ before text after problem, texts = before ++ text :: after
        ∧ (∀ earlier ∈ before, ∃ node, Node.codec.read earlier = .ok node)
        ∧ Node.codec.read text = .error (.content problem)
        ∧ error = .unreadable (.content problem)
        ∧ error.message = "invalid store json: " ++ problem.message := by
  have read_eq : read (arrayText texts)
      = ((texts.mapM Node.codec.read).map ofNodes).mapError .unreadable := by
    have listed := Node.listCodec_read_arrayText wellFormed
    unfold read
    cases done : texts.mapM Node.codec.read <;> rw [listed, done] <;> rfl
  refine ⟨?_, fun nodes each => ?_, fun error => ?_⟩
  · rw [← exists_mapM_eq_ok_iff, read_eq]
    cases texts.mapM Node.codec.read <;> simp [Except.map, Except.mapError]
  · rw [read_eq, mapM_eq_ok_iff.mpr each]
    exact ⟨rfl, node?_ofNodes nodes⟩
  · rw [read_eq]
    constructor
    · intro refused
      cases read : texts.mapM Node.codec.read with
      | ok nodes =>
        rw [read] at refused
        cases refused
      | error complaint =>
        rw [read] at refused
        obtain ⟨before, text, after, split, earlier, failed⟩ := mapM_eq_error_iff.mp read
        obtain ⟨problem, rfl⟩ :=
          Node.exists_problem_of_read (wellFormed text (by simp [split])) failed
        cases refused
        exact ⟨before, text, after, problem, split, earlier, failed, rfl, rfl⟩
    · rintro ⟨before, text, after, problem, split, earlier, failed, rfl, -⟩
      rw [mapM_eq_error_iff.mpr ⟨before, text, after, split, earlier, failed⟩]
      rfl

/-- A page, one that does not say its reference, and something that is no page at all. -/
def pagesWithStray : List Value :=
  [Node.encode (.article ⟨⟨"doc://Kit/A"⟩, "A"⟩),
    .object [("kind", .text "article"), ("title", .text "B")], .null]

theorem pagesWithStray_within : ∀ page ∈ pagesWithStray, page.Within 1 := by
  unfold pagesWithStray
  repeat' first
    | exact .null
    | exact .text _
    | refine .object ?_
    | refine List.forall_mem_cons.mpr ⟨?_, ?_⟩
    | exact List.forall_mem_nil _

/-- One page without a reference, and none of the pages is kept. -/
theorem stray_page_refuses_all :
    (∀ text ∈ pagesWithStray.map Value.toText, IsWellFormed text)
      ∧ read (arrayText (pagesWithStray.map Value.toText))
        = .error (.unreadable (.content (.missingMember "reference"))) := by
  have said : ∀ page ∈ pagesWithStray,
      IsTextOf page.toText page.outline ∧ page.outline.fits 100 = true := fun page listed =>
    have within := pagesWithStray_within page listed
    ⟨isTextOf_toText within, Outline.fits_of_le (by decide) within.fits⟩
  have wellFormed : ∀ text ∈ pagesWithStray.map Value.toText, IsWellFormed text :=
    List.forall_mem_map.mpr fun page listed => ⟨page.outline, said page listed⟩
  have read_page : ∀ page ∈ pagesWithStray,
      Node.codec.read page.toText = Node.decode 100 page.outline :=
    fun page listed => Node.read_of_isTextOf (said page listed).1 (said page listed).2
  obtain ⟨first, others⟩ := List.forall_mem_cons.mp read_page
  obtain ⟨stray, -⟩ := List.forall_mem_cons.mp others
  exact ⟨wellFormed, ((read_arrayText wellFormed).2.2 _).mpr ⟨[_], _, [_], _, rfl,
    List.forall_mem_singleton.mpr ⟨.article ⟨⟨"doc://Kit/A"⟩, "A"⟩, first⟩, stray, rfl, rfl⟩⟩

end Store

end DeclarationDocs
