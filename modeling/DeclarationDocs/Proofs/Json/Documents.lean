import DeclarationDocs.Json.Value
import DeclarationDocs.Proofs.Json.Leaves

/-!
# Written values are read back

The text of a value is scanned into the value's tokens, and the tokens are read into its outline.
Both halves go on in whatever follows the value, and so they hold inside arrays and objects.

Main statement: `Document.ofText_toText`.
-/

namespace DeclarationDocs.Json

/-! ## Values that can be written -/

/-- Numbers fit into 64 bits and containers are at most `depth` deep. -/
inductive Value.Within : Nat → Value → Prop where
  | null {depth : Nat} : Within depth .null
  | natural {depth n : Nat} (fitting : n < 18446744073709551616) : Within depth (.natural n)
  | text {depth : Nat} (content : String) : Within depth (.text content)
  | array {depth : Nat} {items : List Value} (each : ∀ item ∈ items, Within depth item) :
    Within (depth + 1) (.array items)
  | object {depth : Nat} {members : List (String × Value)}
    (each : ∀ member ∈ members, Within depth member.2) : Within (depth + 1) (.object members)

namespace Value

mutual

/-- The tokens of a value. -/
def tokens : Value → List Token
  | .null => [.null]
  | .natural n => [.number (some (.integer n))]
  | .text content => [.text (some content)]
  | .array [] => [.openArray, .closeArray]
  | .array (item :: rest) => .openArray :: (item.tokens ++ itemTokens rest)
  | .object [] => [.openObject, .closeObject]
  | .object ((name, value) :: rest) =>
    .openObject :: .text (some name) :: .colon :: (value.tokens ++ memberTokens rest)

/-- The tokens of the further items of an array, up to its end. -/
def itemTokens : List Value → List Token
  | [] => [.closeArray]
  | item :: rest => .comma :: (item.tokens ++ itemTokens rest)

/-- The tokens of the further members of an object, up to its end. -/
def memberTokens : List (String × Value) → List Token
  | [] => [.closeObject]
  | (name, value) :: rest =>
    .comma :: .text (some name) :: .colon :: (value.tokens ++ memberTokens rest)

end

theorem allFit_outlines {depth : Nat} {items : List Value}
    (each : ∀ item ∈ items, item.outline.fits depth = true) :
    Outline.allFit depth (outlines items) = true := by
  induction items with
  | nil => simp only [outlines, Outline.allFit]
  | cons item rest ih =>
    obtain ⟨first, others⟩ := List.forall_mem_cons.mp each
    simp only [outlines, Outline.allFit, first, ih others, Bool.and_self]

theorem membersFit_memberOutlines {depth : Nat} {members : List (String × Value)}
    (each : ∀ member ∈ members, member.2.outline.fits depth = true) :
    Outline.membersFit depth (memberOutlines members) = true := by
  induction members with
  | nil => simp only [memberOutlines, Outline.membersFit]
  | cons member rest ih =>
    obtain ⟨first, others⟩ := List.forall_mem_cons.mp each
    simp only [memberOutlines, Outline.membersFit, first, ih others, Bool.and_self]

/-- What a value says may be stored where there is room for its containers. -/
theorem Within.fits {depth : Nat} {value : Value} (within : value.Within depth) :
    value.outline.fits depth = true := by
  induction within with
  | null => simp only [outline, Outline.fits]
  | natural => simp only [outline, Outline.fits, Option.isSome_some]
  | text => simp only [outline, Outline.fits, Option.isSome_some]
  | array _ ih => simp only [outline, Outline.fits, allFit_outlines ih, Bool.and_self]
  | object _ ih => simp only [outline, Outline.fits, membersFit_memberOutlines ih, Bool.and_self]

end Value

/-! ## From the text to the tokens -/

namespace Token

open Value Numeral

theorem scan_cons {c : Char} {rest left : List Char} {token : Token} (solid : isBlank c = false)
    (starts : start c rest = (token, left)) (sound : token ≠ junk) :
    scan (c :: rest) = token :: scan left := by
  rw [scan, solid, starts]
  cases token <;> first | rfl | exact absurd rfl sound

theorem scan_openArray (rest : List Char) : scan ('[' :: rest) = .openArray :: scan rest :=
  scan_cons rfl rfl (fun same => nomatch same)

theorem scan_closeArray (rest : List Char) : scan (']' :: rest) = .closeArray :: scan rest :=
  scan_cons rfl rfl (fun same => nomatch same)

theorem scan_openObject (rest : List Char) : scan ('\x7b' :: rest) = .openObject :: scan rest :=
  scan_cons rfl rfl (fun same => nomatch same)

theorem scan_closeObject (rest : List Char) :
    scan ('\x7d' :: rest) = .closeObject :: scan rest :=
  scan_cons rfl rfl (fun same => nomatch same)

theorem scan_comma (rest : List Char) : scan (',' :: rest) = .comma :: scan rest :=
  scan_cons rfl rfl (fun same => nomatch same)

theorem scan_colon (rest : List Char) : scan (':' :: rest) = .colon :: scan rest :=
  scan_cons rfl rfl (fun same => nomatch same)

theorem scan_writeText (content : String) (rest : List Char) :
    scan (writeText content ++ rest) = .text (some content) :: scan rest := by
  have starts : start '"' (content.toList.flatMap escapeChar ++ '"' :: rest)
      = (.text (some content), rest) := by
    simp only [start, Piece.read?_written, Piece.chars?_written, Option.map_some,
      String.ofList_toList]
  have whole : writeText content ++ rest
      = '"' :: (content.toList.flatMap escapeChar ++ '"' :: rest) := by
    simp only [writeText, List.cons_append, List.append_assoc, List.nil_append]
  rw [whole]
  exact scan_cons rfl starts (fun same => nomatch same)

/-- Behind a value in an array stands a comma or the closing bracket. -/
theorem endsNumber_writeItems (items : List Value) (rest : List Char) :
    EndsNumber (writeItems items ++ rest) := by
  intro c first
  cases items with
  | nil =>
    obtain rfl : ']' = c := Option.some.inj first
    decide
  | cons item items =>
    obtain rfl : ',' = c := Option.some.inj first
    decide

/-- Behind a value in an object stands a comma or the closing brace. -/
theorem endsNumber_writeMembers (members : List (String × Value)) (rest : List Char) :
    EndsNumber (writeMembers members ++ rest) := by
  intro c first
  cases members with
  | nil =>
    obtain rfl : '\x7d' = c := Option.some.inj first
    decide
  | cons member members =>
    obtain rfl : ',' = c := Option.some.inj first
    decide

theorem start_digit {c : Char} (digit : c.isDigit = true) (rest : List Char) :
    start c rest = match Numeral.read? (c :: rest) with
      | some (numeral, rest) => (number numeral.value?, rest)
      | none => (junk, rest) := by
  unfold start
  split
  case h_11 => rfl
  all_goals exact absurd digit (by decide)

theorem isBlank_digit {c : Char} (digit : c.isDigit = true) : isBlank c = false := by
  cases blank : isBlank c with
  | false => rfl
  | true =>
    simp only [isBlank, Bool.or_eq_true, decide_eq_true_eq] at blank
    rcases blank with ((rfl | rfl) | rfl) | rfl <;> exact absurd digit (by decide)

theorem scan_toDigits {n : Nat} (fitting : n < 18446744073709551616) {rest : List Char}
    (ends : EndsNumber rest) :
    scan (Nat.toDigits 10 n ++ rest) = .number (some (.integer n)) :: scan rest := by
  have read := read?_toDigits n ends
  cases split : Nat.toDigits 10 n with
  | nil => exact absurd split Nat.toDigits_ne_nil
  | cons c digits =>
    have digit : c.isDigit = true :=
      Nat.isDigit_of_mem_toDigits (by decide) (by decide) (split ▸ List.mem_cons_self)
    have starts : start c (digits ++ rest) = (.number (some (.integer n)), rest) := by
      rw [split, List.cons_append] at read
      rw [start_digit digit, read]
      exact congrArg (fun number => (Token.number number, rest)) (value?_digitsOf n fitting)
    exact scan_cons (isBlank_digit digit) starts (fun same => nomatch same)

theorem scan_writeItems {items : List Value} (rest : List Char)
    (each : ∀ item ∈ items, ∀ rest, EndsNumber rest →
      scan (item.write ++ rest) = item.tokens ++ scan rest) :
    scan (writeItems items ++ rest) = itemTokens items ++ scan rest := by
  induction items with
  | nil => exact scan_closeArray rest
  | cons item items ih =>
    obtain ⟨first, others⟩ := List.forall_mem_cons.mp each
    have head := first _ (endsNumber_writeItems items rest)
    simp only [writeItems, itemTokens, List.cons_append, List.append_assoc, scan_comma, head,
      ih others]

theorem scan_member (name : String) {value : Value} {rest : List Char}
    (read : scan (value.write ++ rest) = value.tokens ++ scan rest) :
    scan (writeText name ++ ':' :: (value.write ++ rest))
      = .text (some name) :: .colon :: (value.tokens ++ scan rest) := by
  rw [scan_writeText, scan_colon, read]

theorem scan_writeMembers {members : List (String × Value)} (rest : List Char)
    (each : ∀ member ∈ members, ∀ rest, EndsNumber rest →
      scan (member.2.write ++ rest) = member.2.tokens ++ scan rest) :
    scan (writeMembers members ++ rest) = memberTokens members ++ scan rest := by
  induction members with
  | nil => exact scan_closeObject rest
  | cons member members ih =>
    obtain ⟨first, others⟩ := List.forall_mem_cons.mp each
    have head := scan_member member.1 (first _ (endsNumber_writeMembers members rest))
    simp only [writeMembers, memberTokens, List.cons_append, List.append_assoc, scan_comma, head,
      ih others]

/-- The text of a value is scanned into its tokens, whatever may follow. -/
theorem scan_write {depth : Nat} {value : Value} (within : value.Within depth) (rest : List Char)
    (ends : EndsNumber rest) : scan (value.write ++ rest) = value.tokens ++ scan rest := by
  -- only a number has to be told from what follows it
  induction within generalizing rest with
  | null => exact scan_cons rfl rfl (fun same => nomatch same)
  | natural fitting => exact scan_toDigits fitting ends
  | text content => exact scan_writeText content rest
  | @array _ items each ih =>
    cases items with
    | nil => exact (scan_openArray _).trans (congrArg _ (scan_closeArray rest))
    | cons item items =>
      obtain ⟨first, others⟩ := List.forall_mem_cons.mp ih
      have head := first _ (endsNumber_writeItems items rest)
      simp only [write, tokens, List.cons_append, List.append_assoc, scan_openArray, head,
        scan_writeItems rest others]
  | @object _ members each ih =>
    cases members with
    | nil => exact (scan_openObject _).trans (congrArg _ (scan_closeObject rest))
    | cons member members =>
      obtain ⟨first, others⟩ := List.forall_mem_cons.mp ih
      have head := scan_member member.1 (first _ (endsNumber_writeMembers members rest))
      simp only [write, tokens, List.cons_append, List.append_assoc, scan_openObject, head,
        scan_writeMembers rest others]

end Token

/-! ## From the tokens to the outline -/

namespace Outline

open Value

/-- Go on with the tokens behind the one that was read. -/
def resume (rest : List Token) : Step → Outline × Option (List Token)
  | .proceed place frames => readFrom frames place rest
  | .finish outline => (outline, some rest)
  | .stop outline => (outline, none)

theorem readFrom_cons (frames : List Frame) (place : Place) (token : Token) (rest : List Token) :
    readFrom frames place (token :: rest) = resume rest (step frames place token) := by
  rw [readFrom]
  cases step frames place token <;> rfl

/-- A value in an array is read like any other value, also behind the opening bracket. -/
theorem readFrom_firstItem (value : Value) (frames : List Frame) (rest : List Token) :
    readFrom frames .firstItem (value.tokens ++ rest)
      = readFrom (.array [] :: frames) .value (value.tokens ++ rest) := by
  cases value with
  | null => rfl
  | natural => rfl
  | text => rfl
  | array items => cases items <;> rfl
  | object members => cases members <;> rfl

theorem readFrom_itemTokens {items : List Value} (done : List Outline) (frames : List Frame)
    (rest : List Token)
    (each : ∀ item ∈ items, ∀ frames rest,
      readFrom frames .value (item.tokens ++ rest) = resume rest (complete item.outline frames)) :
    readFrom frames (.afterItem done) (itemTokens items ++ rest)
      = resume rest (complete (.array (done.reverse ++ outlines items) true) frames) := by
  induction items generalizing done with
  | nil => rw [itemTokens, outlines, List.append_nil, List.singleton_append, readFrom_cons, step]
  | cons item items ih =>
    obtain ⟨first, others⟩ := List.forall_mem_cons.mp each
    simp only [itemTokens, List.cons_append, List.append_assoc, readFrom_cons, step, resume, first,
      complete, ih _ others, outlines, List.reverse_cons, List.nil_append]

theorem readFrom_memberTokens {members : List (String × Value)} (done : List (Key × Outline))
    (frames : List Frame) (rest : List Token)
    (each : ∀ member ∈ members, ∀ frames rest,
      readFrom frames .value (member.2.tokens ++ rest)
        = resume rest (complete member.2.outline frames)) :
    readFrom frames (.afterMember done) (memberTokens members ++ rest)
      = resume rest (complete (.object (done.reverse ++ memberOutlines members) true) frames) := by
  induction members generalizing done with
  | nil =>
    rw [memberTokens, memberOutlines, List.append_nil, List.singleton_append, readFrom_cons, step]
  | cons member members ih =>
    obtain ⟨first, others⟩ := List.forall_mem_cons.mp each
    simp only [memberTokens, List.cons_append, List.append_assoc, readFrom_cons, step, resume,
      keyOf, first, complete, ih _ others, memberOutlines, List.reverse_cons, List.nil_append]

/-- The tokens of a value are read into its outline, inside any containers. -/
theorem readFrom_tokens {depth : Nat} {value : Value} (within : value.Within depth)
    (frames : List Frame) (rest : List Token) :
    readFrom frames .value (value.tokens ++ rest)
      = resume rest (complete value.outline frames) := by
  -- the containers around a value differ from item to item, so the frames are not fixed
  induction within generalizing frames rest with
  | null => exact readFrom_cons ..
  | natural => exact readFrom_cons ..
  | text => exact readFrom_cons ..
  | @array _ items each ih =>
    cases items with
    | nil => rfl
    | cons item items =>
      obtain ⟨first, others⟩ := List.forall_mem_cons.mp ih
      simp only [tokens, List.cons_append, List.append_assoc, readFrom_cons, step, startValue,
        resume, readFrom_firstItem, first, complete, readFrom_itemTokens _ _ _ others, outline,
        outlines, List.reverse_singleton, List.nil_append]
  | @object _ members each ih =>
    cases members with
    | nil => rfl
    | cons member members =>
      obtain ⟨first, others⟩ := List.forall_mem_cons.mp ih
      simp only [tokens, List.cons_append, List.append_assoc, readFrom_cons, step, startValue,
        resume, keyOf, first, complete, readFrom_memberTokens _ _ _ others, outline,
        memberOutlines, List.reverse_singleton, List.nil_append]

end Outline

/-- The text of a value says what the value says, and nothing follows. -/
theorem Document.ofText_toText {depth : Nat} {value : Value} (within : value.Within depth) :
    Document.ofText value.toText = ⟨value.outline, true⟩ := by
  have scanned : Token.scan value.toText.toList = value.tokens := by
    have text : value.toText.toList = value.write ++ [] := by
      rw [Value.toText, String.toList_ofList, List.append_nil]
    rw [text, Token.scan_write within [] (fun c first => nomatch first), Token.scan,
      List.append_nil]
  have read : Outline.ofTokens value.tokens = (value.outline, some []) := by
    have whole := Outline.readFrom_tokens within [] []
    rwa [List.append_nil] at whole
  rw [Document.ofText, scanned, read]

end DeclarationDocs.Json
