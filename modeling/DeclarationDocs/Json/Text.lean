/-!
# JSON strings

Between its quotes a string is a list of pieces: characters that stand for themselves, short escapes
such as `\n`, and escapes that give a 16-bit unit in four digits. Two such units in a row may form
one character beyond the 16-bit range; a unit that is half of such a pair and stands alone is no
character. A string can then be passed over, but it cannot be read.
-/

namespace DeclarationDocs.Json

/-- A piece of a string. -/
inductive Piece where
  | plain (c : Char)
  | unit (code : Nat)

namespace Piece

def ofEscape? : Char → Option Char
  | '"' => some '"'
  | '\\' => some '\\'
  | '/' => some '/'
  | 'b' => some '\x08'
  | 'f' => some '\x0c'
  | 'n' => some '\n'
  | 'r' => some '\r'
  | 't' => some '\t'
  | _ => none

def hexValue? (c : Char) : Option Nat :=
  if '0' ≤ c ∧ c ≤ '9' then some (c.toNat - '0'.toNat)
  else if 'a' ≤ c ∧ c ≤ 'f' then some (c.toNat - 'a'.toNat + 10)
  else if 'A' ≤ c ∧ c ≤ 'F' then some (c.toNat - 'A'.toNat + 10)
  else none

def hexNumber? (digits : List Char) : Option Nat :=
  digits.foldlM (fun n digit => (hexValue? digit).map (16 * n + ·)) 0

def lead (piece : Piece) (read : List Piece × List Char) : List Piece × List Char :=
  (piece :: read.1, read.2)

/-- The pieces up to the closing quote and what follows it. No raw control character may stand in a
string. -/
def read? : List Char → Option (List Piece × List Char)
  | [] => none
  | '"' :: rest => some ([], rest)
  | '\\' :: 'u' :: a :: b :: c :: d :: rest =>
    (hexNumber? [a, b, c, d]).bind fun code => (read? rest).map (lead (unit code))
  | '\\' :: escape :: rest =>
    (ofEscape? escape).bind fun c => (read? rest).map (lead (plain c))
  | c :: rest => if c < ' ' then none else (read? rest).map (lead (plain c))

def opensPair (code : Nat) : Bool := 0xD800 ≤ code && code < 0xDC00

def closesPair (code : Nat) : Bool := 0xDC00 ≤ code && code < 0xE000

def pairChar (first second : Nat) : Char :=
  Char.ofNat (0x10000 + (first - 0xD800) * 0x400 + (second - 0xDC00))

/-- The characters of a string; none when a half of a pair stands alone. -/
def chars? : List Piece → Option (List Char)
  | [] => some []
  | plain c :: rest => (chars? rest).map (c :: ·)
  | unit code :: rest =>
    if opensPair code then
      match rest with
      | unit second :: rest =>
        if closesPair second then (chars? rest).map (pairChar code second :: ·) else none
      | _ => none
    else if closesPair code then none
    else (chars? rest).map (Char.ofNat code :: ·)

/-- What is left after a string is shorter than the text it was read from. -/
theorem length_of_read? {text rest : List Char} {pieces : List Piece}
    (done : read? text = some (pieces, rest)) : rest.length < text.length := by
  fun_induction read? text generalizing pieces rest with
  | case1 => simp at done
  | case2 => simp_all
  | case3 a b c d tail ih =>
    obtain ⟨_, -, done⟩ := Option.bind_eq_some_iff.mp done
    obtain ⟨⟨_, left⟩, done, same⟩ := Option.map_eq_some_iff.mp done
    have shorter := ih done
    obtain rfl : left = rest := congrArg Prod.snd same
    simp only [List.length_cons]
    omega
  | case4 escape tail _ ih =>
    obtain ⟨_, -, done⟩ := Option.bind_eq_some_iff.mp done
    obtain ⟨⟨_, left⟩, done, same⟩ := Option.map_eq_some_iff.mp done
    have shorter := ih done
    obtain rfl : left = rest := congrArg Prod.snd same
    simp only [List.length_cons]
    omega
  | case5 => simp at done
  | case6 c tail _ _ _ _ ih =>
    obtain ⟨⟨_, left⟩, done, same⟩ := Option.map_eq_some_iff.mp done
    have shorter := ih done
    obtain rfl : left = rest := congrArg Prod.snd same
    simp only [List.length_cons]
    omega

end Piece

/-! ## Writing -/

def escapeChar (c : Char) : List Char :=
  match c with
  | '"' => ['\\', '"']
  | '\\' => ['\\', '\\']
  | '\x08' => ['\\', 'b']
  | '\x0c' => ['\\', 'f']
  | '\n' => ['\\', 'n']
  | '\r' => ['\\', 'r']
  | '\t' => ['\\', 't']
  | c =>
    if c < ' ' then
      ['\\', 'u', '0', '0', Nat.digitChar (c.toNat / 16), Nat.digitChar (c.toNat % 16)]
    else [c]

def writeText (text : String) : List Char :=
  '"' :: text.toList.flatMap escapeChar ++ ['"']

end DeclarationDocs.Json
