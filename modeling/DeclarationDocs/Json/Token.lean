import DeclarationDocs.Json.Numeral
import DeclarationDocs.Json.Text

/-!
# JSON tokens

A text is first cut into tokens. Blanks between tokens carry no meaning. Where the text has no token
the list ends with `junk`, so that whatever stands before can still be looked at.
-/

namespace DeclarationDocs.Json

/-- The smallest meaningful pieces of a document. A number beyond the range of doubles and a string
with half a pair are tokens too, without a value. -/
inductive Token where
  | openArray
  | closeArray
  | openObject
  | closeObject
  | comma
  | colon
  | null
  | boolean (value : Bool)
  | number (value : Option Number)
  | text (value : Option String)
  | junk

namespace Token

def isBlank (c : Char) : Bool := c = ' ' || c = '\t' || c = '\n' || c = '\r'

def afterWord? : List Char → List Char → Option (List Char)
  | [], rest => some rest
  | _, [] => none
  | letter :: letters, c :: rest => if letter = c then afterWord? letters rest else none

/-- The word token at the start of a text, given the rest of its spelling. -/
def word (token : Token) (letters rest : List Char) : Token × List Char :=
  match afterWord? letters rest with
  | some rest => (token, rest)
  | none => (junk, rest)

/-- The token that starts with a character, and what follows it. -/
def start (c : Char) (rest : List Char) : Token × List Char :=
  match c with
  | '[' => (openArray, rest)
  | ']' => (closeArray, rest)
  | '\x7b' => (openObject, rest)
  | '\x7d' => (closeObject, rest)
  | ',' => (comma, rest)
  | ':' => (colon, rest)
  | 'n' => word null ['u', 'l', 'l'] rest
  | 't' => word (boolean true) ['r', 'u', 'e'] rest
  | 'f' => word (boolean false) ['a', 'l', 's', 'e'] rest
  | '"' =>
    match Piece.read? rest with
    | some (pieces, rest) => (.text ((Piece.chars? pieces).map String.ofList), rest)
    | none => (junk, rest)
  | c =>
    match Numeral.read? (c :: rest) with
    | some (numeral, rest) => (number numeral.value?, rest)
    | none => (junk, rest)

/-! ## What is left is shorter -/

theorem length_afterWord? {letters text rest : List Char}
    (done : afterWord? letters text = some rest) : rest.length ≤ text.length := by
  fun_induction afterWord? letters text with
  | case1 => simp_all
  | case2 => simp at done
  | case3 letters c text ih =>
    have := ih done
    simp only [List.length_cons]
    omega
  | case4 => simp at done

theorem length_word (token : Token) (letters rest : List Char) :
    (word token letters rest).2.length ≤ rest.length := by
  unfold word
  split
  next done => exact length_afterWord? done
  next => exact Nat.le_refl _

/-- What is left after a token is no longer than what stood after its first character. -/
theorem length_start (c : Char) (rest : List Char) :
    (start c rest).2.length ≤ rest.length := by
  unfold start
  split
  case h_7 => exact length_word ..
  case h_8 => exact length_word ..
  case h_9 => exact length_word ..
  case h_10 =>
    split
    next done => exact Nat.le_of_lt (Piece.length_of_read? done)
    next => exact Nat.le_refl _
  case h_11 =>
    split
    next done =>
      have := Numeral.length_of_read? done
      exact Nat.le_of_lt_succ this
    next => exact Nat.le_refl _
  all_goals exact Nat.le_refl _

def scan : List Char → List Token
  | [] => []
  | c :: rest =>
    if isBlank c then scan rest
    else
      match (start c rest).1 with
      | junk => [junk]
      | token => token :: scan (start c rest).2
termination_by text => text.length
decreasing_by
  · simp
  · have := length_start c rest
    simp only [List.length_cons]
    omega

end Token

end DeclarationDocs.Json
