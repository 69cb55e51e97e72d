import Mathlib.Data.List.Forall2
import DeclarationDocs.Json.Codec
import DeclarationDocs.Proofs.Json.Scanning

/-!
# Texts put together from texts

The text of an array or an object may be put together from the texts of its parts, whatever they
look like: it says of each part what the part's own text says. Reading a part inside a container
goes through the same steps as reading it alone, with the containers around it kept apart.

Main statements: `isTextOf_arrayText` and `isTextOf_objectText`.
-/

namespace DeclarationDocs.Json

/-! ## Inside further containers -/

namespace Outline

/-- What a step leads to when the outermost value stands in further containers. -/
def Step.inside (outer : List Frame) : Step → Step
  | .proceed place frames => .proceed place (frames ++ outer)
  | .finish outline => complete outline outer
  | .stop outline => .stop (leaveAllOpen outer outline)

theorem leaveAllOpen_append (frames outer : List Frame) (last : Outline) :
    leaveAllOpen (frames ++ outer) last = leaveAllOpen outer (leaveAllOpen frames last) :=
  List.foldl_append

theorem breakOff_append (frames outer : List Frame) (place : Place) :
    breakOff (frames ++ outer) place = leaveAllOpen outer (breakOff frames place) := by
  cases place with
  | colon members key => exact leaveAllOpen_append (.object members key :: frames) outer .broken
  | _ => exact leaveAllOpen_append frames outer _

theorem complete_append (outline : Outline) (frames outer : List Frame) :
    complete outline (frames ++ outer) = (complete outline frames).inside outer := by
  cases frames with
  | nil => rfl
  | cons frame frames => cases frame <;> rfl

theorem startValue_append (frames outer : List Frame) (token : Token) :
    startValue (frames ++ outer) token = (startValue frames token).inside outer := by
  cases token with
  | null | boolean | number | text => exact complete_append _ frames outer
  | openArray | openObject => rfl
  | _ => exact congrArg Step.stop (breakOff_append frames outer .value)

/-- Behind the opening bracket of an array a value starts as it does anywhere in the array. -/
theorem step_firstItem {token : Token} (opens : token ≠ .closeArray) (frames : List Frame) :
    step frames .firstItem token = step (.array [] :: frames) .value token := by
  cases token with
  | closeArray => exact absurd rfl opens
  | _ => rfl

theorem step_append (frames outer : List Frame) (place : Place) (token : Token) :
    step (frames ++ outer) place token = (step frames place token).inside outer := by
  have stops : ∀ place, Step.stop (breakOff (frames ++ outer) place)
      = (Step.stop (breakOff frames place)).inside outer :=
    fun place => congrArg Step.stop (breakOff_append frames outer place)
  cases place with
  | value => exact startValue_append frames outer token
  | firstItem =>
    by_cases closes : token = .closeArray
    · subst closes
      exact complete_append _ frames outer
    · rw [step_firstItem closes, step_firstItem closes]
      exact startValue_append (.array [] :: frames) outer token
  | afterItem items =>
    cases token with
    | closeArray => exact complete_append _ frames outer
    | comma => rfl
    | _ => exact stops _
  | firstKey =>
    cases token with
    | closeObject => exact complete_append _ frames outer
    | text => rfl
    | _ => exact stops _
  | nextKey members =>
    cases token with
    | text => rfl
    | _ => exact stops _
  | colon members key =>
    cases token with
    | colon => rfl
    | _ => exact stops _
  | afterMember members =>
    cases token with
    | closeObject => exact complete_append _ frames outer
    | comma => rfl
    | _ => exact stops _

/-- A complete value is read the same way inside further containers, and reading goes on there. -/
theorem readFrom_append {frames : List Frame} {place : Place} {tokens : List Token}
    {outline : Outline} (read : readFrom frames place tokens = (outline, some []))
    (outer : List Frame) (rest : List Token) :
    readFrom (frames ++ outer) place (tokens ++ rest) = resume rest (complete outline outer) := by
  induction tokens generalizing frames place with
  | nil => cases read
  | cons token tokens ih =>
    rw [readFrom_cons] at read
    rw [List.cons_append, readFrom_cons, step_append]
    cases next : step frames place token with
    | proceed place frames =>
      rw [next] at read
      exact ih read
    | finish outline =>
      rw [next] at read
      cases read
      rfl
    | stop outline =>
      rw [next] at read
      cases read

theorem junk_notMem_of_readFrom {frames : List Frame} {place : Place} {tokens : List Token}
    {outline : Outline} (read : readFrom frames place tokens = (outline, some [])) :
    .junk ∉ tokens := by
  induction tokens generalizing frames place with
  | nil => exact List.not_mem_nil
  | cons token tokens ih =>
    rw [readFrom_cons] at read
    have first : token ≠ .junk := by
      rintro rfl
      cases place <;> cases read
    have others : .junk ∉ tokens := by
      cases next : step frames place token with
      | proceed place frames =>
        rw [next] at read
        exact ih read
      | finish outline =>
        rw [next] at read
        cases read
        exact List.not_mem_nil
      | stop outline =>
        rw [next] at read
        cases read
    simpa [first.symm] using others

end Outline

/-! ## Texts put together from the texts of their parts -/

/-- The text says what the outline says, and nothing follows. -/
def IsTextOf (text : String) (outline : Outline) : Prop := Document.ofText text = ⟨outline, true⟩

/-- The text is a string and says the name. -/
def Names (text name : String) : Prop := Token.scan text.toList = [.text (some name)]

/-- The text in which a name is written says the name. -/
theorem names_toText (name : String) : Names (Value.text name).toText name := by
  have scanned := Token.scan_writeText name []
  rw [List.append_nil, Token.scan] at scanned
  rw [Names, Value.toText, String.toList_ofList, Value.write, scanned]

/-- The text in which a value is written says the value. -/
theorem isTextOf_toText {depth : Nat} {value : Value} (within : value.Within depth) :
    IsTextOf value.toText value.outline :=
  Document.ofText_toText within

/-- A text is read as what it says is decoded. -/
theorem Codec.read_of_isTextOf {α : Type} (codec : Codec α) {text : String} {outline : Outline}
    (written : IsTextOf text outline) : codec.read text = codec.decode .live outline := by
  rw [read, written]
  cases decoded : codec.decode .live outline <;> rfl

def arrayText (items : List String) : String := "[" ++ ",".intercalate items ++ "]"

def objectText (members : List (String × String)) : String :=
  "\x7b" ++ ",".intercalate (members.map fun (name, value) => name ++ ":" ++ value) ++ "\x7d"

namespace IsTextOf

open Outline

variable {text : String} {outline : Outline}

theorem ofTokens (written : IsTextOf text outline) :
    Outline.ofTokens (Token.scan text.toList) = (outline, some []) := by
  unfold IsTextOf Document.ofText at written
  split at written
  next root read =>
    cases written
    exact read
  next => cases written

theorem of_ofTokens (read : Outline.ofTokens (Token.scan text.toList) = (outline, some [])) :
    IsTextOf text outline := by
  rw [IsTextOf, Document.ofText, read]

theorem sound (written : IsTextOf text outline) : .junk ∉ Token.scan text.toList :=
  junk_notMem_of_readFrom written.ofTokens

theorem readFrom_value (written : IsTextOf text outline) (frames : List Frame) (rest : List Token) :
    readFrom frames .value (Token.scan text.toList ++ rest)
      = resume rest (complete outline frames) :=
  readFrom_append written.ofTokens frames rest

theorem readFrom_firstItem (written : IsTextOf text outline) (frames : List Frame)
    (rest : List Token) :
    readFrom frames .firstItem (Token.scan text.toList ++ rest)
      = resume rest (complete outline (.array [] :: frames)) := by
  rw [← written.readFrom_value]
  have read := written.ofTokens
  cases tokens : Token.scan text.toList with
  | nil =>
    rw [tokens] at read
    cases read
  | cons token more =>
    have opens : token ≠ .closeArray := by
      rintro rfl
      rw [tokens] at read
      cases read
    rw [List.cons_append, readFrom_cons, readFrom_cons, step_firstItem opens]

/-- The text in front of something else in a document. -/
theorem scan_append (written : IsTextOf text outline) {rest : List Char} (ends : EndsToken rest) :
    Token.scan (text.toList ++ rest) = Token.scan text.toList ++ Token.scan rest :=
  Token.scan_append written.sound ends

end IsTextOf

/-! ### Arrays -/

/-- The text of the further items of an array, up to its end. -/
def furtherItems : List String → List Char
  | [] => [']']
  | item :: rest => ',' :: (item.toList ++ furtherItems rest)

theorem toList_arrayText_cons (item : String) (rest : List String) :
    (arrayText (item :: rest)).toList = '[' :: (item.toList ++ furtherItems rest) := by
  have further : (",".intercalate (item :: rest)).toList ++ [']']
      = item.toList ++ furtherItems rest := by
    induction rest generalizing item with
    | nil => simp [furtherItems]
    | cons next rest ih =>
      rw [String.intercalate_cons_cons, furtherItems, ← ih next]
      simp
  rw [arrayText, String.toList_append, String.toList_append, List.append_assoc,
    show "]".toList = [']'] from rfl, further]
  rfl

theorem endsToken_furtherItems (items : List String) : EndsToken (furtherItems items) := by
  cases items with
  | nil => exact .cons (by decide) _
  | cons item rest => exact .cons (by decide) _

theorem readFrom_furtherItems {items : List String} {outlines : List Outline}
    (each : List.Forall₂ IsTextOf items outlines) (done : List Outline) :
    Outline.readFrom [] (.afterItem done) (Token.scan (furtherItems items))
      = (.array (done.reverse ++ outlines) true, some []) := by
  induction each generalizing done with
  | nil =>
    rw [furtherItems, Token.scan_closeArray, Token.scan, List.append_nil]
    rfl
  | @cons item outline items outlines written _ ih =>
    have ends := endsToken_furtherItems items
    rw [furtherItems, Token.scan_comma, written.scan_append ends]
    simp only [Outline.readFrom_cons, Outline.step, Outline.resume, written.readFrom_value,
      Outline.complete, ih, List.reverse_cons, List.append_assoc, List.singleton_append]

/-- An array is put together from the texts of its items. -/
theorem isTextOf_arrayText {items : List String} {outlines : List Outline}
    (each : List.Forall₂ IsTextOf items outlines) :
    IsTextOf (arrayText items) (.array outlines true) := by
  refine .of_ofTokens ?_
  cases each with
  | nil =>
    have empty : (arrayText []).toList = ['[', ']'] := rfl
    rw [empty, Token.scan_openArray, Token.scan_closeArray, Token.scan]
    rfl
  | @cons item outline items outlines written others =>
    have ends := endsToken_furtherItems items
    rw [toList_arrayText_cons, Token.scan_openArray, written.scan_append ends]
    simp only [Outline.ofTokens, Outline.readFrom_cons, Outline.step, Outline.startValue,
      Outline.resume, written.readFrom_firstItem, Outline.complete, readFrom_furtherItems others]
    rfl

/-! ### Objects -/

/-- The text of the further members of an object, up to its end. -/
def furtherMembers : List (String × String) → List Char
  | [] => ['\x7d']
  | (name, value) :: rest => ',' :: (name.toList ++ ':' :: (value.toList ++ furtherMembers rest))

theorem toList_objectText_cons (name value : String) (rest : List (String × String)) :
    (objectText ((name, value) :: rest)).toList
      = '\x7b' :: (name.toList ++ ':' :: (value.toList ++ furtherMembers rest)) := by
  have further : (",".intercalate (((name, value) :: rest).map fun (name, value) =>
        name ++ ":" ++ value)).toList ++ ['\x7d']
      = name.toList ++ ':' :: (value.toList ++ furtherMembers rest) := by
    induction rest generalizing name value with
    | nil => simp [furtherMembers]
    | cons next rest ih =>
      rw [List.map_cons, List.map_cons, String.intercalate_cons_cons, furtherMembers,
        ← ih next.1 next.2]
      simp
  rw [objectText, String.toList_append, String.toList_append, List.append_assoc,
    show "\x7d".toList = ['\x7d'] from rfl, further]
  rfl

/-- A member says what its name and its value say. -/
def IsTextOfMember (member : String × String) (said : Key × Outline) : Prop :=
  ∃ name, said.1 = .named name ∧ Names member.1 name ∧ IsTextOf member.2 said.2

theorem endsToken_furtherMembers (members : List (String × String)) :
    EndsToken (furtherMembers members) := by
  cases members with
  | nil => exact .cons (by decide) _
  | cons member rest => exact .cons (by decide) _

theorem scan_namedMember {text name value : String} {outline : Outline} (names : Names text name)
    (written : IsTextOf value outline) {rest : List Char} (ends : EndsToken rest) :
    Token.scan (text.toList ++ ':' :: (value.toList ++ rest))
      = .text (some name) :: .colon :: (Token.scan value.toList ++ Token.scan rest) := by
  have sound : .junk ∉ Token.scan text.toList := by
    rw [names]
    simp
  rw [Token.scan_append sound (.cons (by decide) _), names, Token.scan_colon,
    written.scan_append ends]
  rfl

theorem readFrom_furtherMembers {members : List (String × String)} {said : List (Key × Outline)}
    (each : List.Forall₂ IsTextOfMember members said) (done : List (Key × Outline)) :
    Outline.readFrom [] (.afterMember done) (Token.scan (furtherMembers members))
      = (.object (done.reverse ++ said) true, some []) := by
  induction each generalizing done with
  | nil =>
    rw [furtherMembers, Token.scan_closeObject, Token.scan, List.append_nil]
    rfl
  | @cons member said members _ first _ ih =>
    obtain ⟨key, outline⟩ := said
    obtain ⟨name, rfl, names, written⟩ := first
    have ends := endsToken_furtherMembers members
    rw [furtherMembers, Token.scan_comma, scan_namedMember names written ends]
    simp only [Outline.readFrom_cons, Outline.step, Outline.resume, Outline.keyOf,
      written.readFrom_value, Outline.complete, ih, List.reverse_cons, List.append_assoc,
      List.singleton_append]

/-- An object is put together from the texts of its members. -/
theorem isTextOf_objectText {members : List (String × String)} {said : List (Key × Outline)}
    (each : List.Forall₂ IsTextOfMember members said) :
    IsTextOf (objectText members) (.object said true) := by
  refine .of_ofTokens ?_
  cases each with
  | nil =>
    have empty : (objectText []).toList = ['\x7b', '\x7d'] := rfl
    rw [empty, Token.scan_openObject, Token.scan_closeObject, Token.scan]
    rfl
  | @cons member said members _ first others =>
    obtain ⟨key, outline⟩ := said
    obtain ⟨name, rfl, names, written⟩ := first
    have ends := endsToken_furtherMembers members
    rw [toList_objectText_cons, Token.scan_openObject, scan_namedMember names written ends]
    simp only [Outline.ofTokens, Outline.readFrom_cons, Outline.step, Outline.startValue,
      Outline.resume, Outline.keyOf, written.readFrom_value, Outline.complete,
      readFrom_furtherMembers others]
    rfl

end DeclarationDocs.Json
