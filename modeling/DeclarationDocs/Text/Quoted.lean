import DeclarationDocs.Text.Showable

/-!
# Quoted text

How a message quotes a text found in a document: between double quotes, with a backslash before a
quote or a backslash, short escapes for the common control characters, and the code point of every
other character that cannot be shown.
-/

namespace DeclarationDocs.Text

def hexDigits (n : Nat) : List Char := Nat.toDigits 16 n

def quoteChar (c : Char) : List Char :=
  match c with
  | '\x00' => ['\\', '0']
  | '\t' => ['\\', 't']
  | '\r' => ['\\', 'r']
  | '\n' => ['\\', 'n']
  | '\\' => ['\\', '\\']
  | '"' => ['\\', '"']
  | c =>
    if isShowable c then [c]
    else '\\' :: 'u' :: '\x7b' :: hexDigits c.toNat ++ ['\x7d']

def quoted (text : String) : String :=
  String.ofList ('"' :: text.toList.flatMap quoteChar ++ ['"'])

end DeclarationDocs.Text
