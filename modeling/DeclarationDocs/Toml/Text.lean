/-!
# TOML strings

A basic string stands between double quotes and has escapes, a literal string stands between single
quotes and has none. Between three quotes either kind may span several lines; a line ending there
counts as a line feed, and one right after the opening quotes counts for nothing.
-/

namespace DeclarationDocs.Toml

namespace Text

/-- Whether a character may stand for itself in strings and comments. -/
def isPlain (c : Char) : Bool := c = '\t' || (' ' ≤ c && c ≠ '\x7f')

def lead (c : Char) (read : List Char × List Char) : List Char × List Char :=
  (c :: read.1, read.2)

/-! ## Escapes -/

def ofEscape? : Char → Option Char
  | 'b' => some '\x08'
  | 't' => some '\t'
  | 'n' => some '\n'
  | 'f' => some '\x0c'
  | 'r' => some '\r'
  | '"' => some '"'
  | '\\' => some '\\'
  | _ => none

def hexValue? (c : Char) : Option Nat :=
  if c.isDigit then some (c.toNat - '0'.toNat)
  else if 'a' ≤ c ∧ c ≤ 'f' then some (c.toNat - 'a'.toNat + 10)
  else if 'A' ≤ c ∧ c ≤ 'F' then some (c.toNat - 'A'.toNat + 10)
  else none

/-- The character whose code point is given by digits in base sixteen. -/
def ofCodePoint? (digits : List Char) : Option Char := do
  let code ← digits.foldlM (fun n digit => (hexValue? digit).map (16 * n + ·)) 0
  if code.isValidChar then some (Char.ofNat code) else none

/-! ## Strings on one line -/

def basic? : List Char → Option (List Char × List Char)
  | [] => none
  | '"' :: rest => some ([], rest)
  | '\\' :: 'u' :: a :: b :: c :: d :: rest =>
    (ofCodePoint? [a, b, c, d]).bind fun char => (basic? rest).map (lead char)
  | '\\' :: 'U' :: a :: b :: c :: d :: e :: f :: g :: h :: rest =>
    (ofCodePoint? [a, b, c, d, e, f, g, h]).bind fun char => (basic? rest).map (lead char)
  | '\\' :: escape :: rest =>
    (ofEscape? escape).bind fun char => (basic? rest).map (lead char)
  | c :: rest => if isPlain c then (basic? rest).map (lead c) else none

def literal? : List Char → Option (List Char × List Char)
  | [] => none
  | '\x27' :: rest => some ([], rest)
  | c :: rest => if isPlain c then (literal? rest).map (lead c) else none

/-! ## Strings on several lines -/

/-- Where the reading of a basic string on several lines stands. -/
inductive Margin where
  | inLine
  /-- After a backslash at the end of a line; only blanks may come before the line ending. -/
  | beforeBreak
  /-- After such a line ending: blanks and line endings are dropped. -/
  | dropping

/-- The rest of a basic string on several lines. Up to two quotes may stand before the three that
close it. -/
def lines? : Margin → List Char → Option (List Char × List Char)
  | _, [] => none
  | .beforeBreak, '\n' :: rest => lines? .dropping rest
  | .beforeBreak, '\r' :: '\n' :: rest => lines? .dropping rest
  | .beforeBreak, c :: rest => if c = ' ' ∨ c = '\t' then lines? .beforeBreak rest else none
  | .dropping, '\n' :: rest => lines? .dropping rest
  | .dropping, ' ' :: rest => lines? .dropping rest
  | .dropping, '\t' :: rest => lines? .dropping rest
  | .dropping, '\r' :: '\n' :: rest => lines? .dropping rest
  | _, '"' :: '"' :: '"' :: '"' :: '"' :: rest => some (['"', '"'], rest)
  | _, '"' :: '"' :: '"' :: '"' :: rest => some (['"'], rest)
  | _, '"' :: '"' :: '"' :: rest => some ([], rest)
  | _, '\r' :: '\n' :: rest => (lines? .inLine rest).map (lead '\n')
  | _, '\n' :: rest => (lines? .inLine rest).map (lead '\n')
  | _, '\\' :: 'u' :: a :: b :: c :: d :: rest =>
    (ofCodePoint? [a, b, c, d]).bind fun char => (lines? .inLine rest).map (lead char)
  | _, '\\' :: 'U' :: a :: b :: c :: d :: e :: f :: g :: h :: rest =>
    (ofCodePoint? [a, b, c, d, e, f, g, h]).bind fun char =>
      (lines? .inLine rest).map (lead char)
  | _, '\\' :: '\n' :: rest => lines? .dropping rest
  | _, '\\' :: ' ' :: rest => lines? .beforeBreak rest
  | _, '\\' :: '\t' :: rest => lines? .beforeBreak rest
  | _, '\\' :: '\r' :: '\n' :: rest => lines? .dropping rest
  | _, '\\' :: escape :: rest =>
    (ofEscape? escape).bind fun char => (lines? .inLine rest).map (lead char)
  | _, c :: rest => if isPlain c then (lines? .inLine rest).map (lead c) else none

def literalLines? : List Char → Option (List Char × List Char)
  | [] => none
  | '\x27' :: '\x27' :: '\x27' :: '\x27' :: '\x27' :: rest => some (['\x27', '\x27'], rest)
  | '\x27' :: '\x27' :: '\x27' :: '\x27' :: rest => some (['\x27'], rest)
  | '\x27' :: '\x27' :: '\x27' :: rest => some ([], rest)
  | '\r' :: '\n' :: rest => (literalLines? rest).map (lead '\n')
  | '\n' :: rest => (literalLines? rest).map (lead '\n')
  | c :: rest => if isPlain c then (literalLines? rest).map (lead c) else none

def dropBreak : List Char → List Char
  | '\n' :: rest => rest
  | '\r' :: '\n' :: rest => rest
  | text => text

def read? : List Char → Option (List Char × List Char)
  | '"' :: '"' :: '"' :: rest => lines? .inLine (dropBreak rest)
  | '"' :: rest => basic? rest
  | '\x27' :: '\x27' :: '\x27' :: rest => literalLines? (dropBreak rest)
  | '\x27' :: rest => literal? rest
  | _ => none

end Text

end DeclarationDocs.Toml
