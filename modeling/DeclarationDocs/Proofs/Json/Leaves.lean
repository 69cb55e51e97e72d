import DeclarationDocs.Json.Token

/-!
# Written strings and numbers are read back

The leaves of a document. A written string holds one piece for each character, and its pieces give
the characters back; a written number below `2 ^ 64` is gathered digit by digit into itself.

Main statements: `Piece.read?_written` and `Piece.chars?_written` for strings,
`Numeral.read?_toDigits` and `Numeral.value?_digitsOf` for numbers.
-/

namespace DeclarationDocs.Json

/-! ## Strings -/

namespace Piece

/-- Whether a character is written as a unit in four digits: a control character that has no short
escape. -/
def isUnit (c : Char) : Bool :=
  c < ' ' && !(['\x08', '\x0c', '\n', '\r', '\t'].contains c)

/-- The piece as which a character is written. -/
def ofWritten (c : Char) : Piece := if isUnit c then unit c.toNat else plain c

theorem hexValue?_digitChar : ∀ n : Nat, n < 16 → hexValue? n.digitChar = some n := by decide

theorem hexNumber?_low {n : Nat} (small : n < 32) :
    hexNumber? ['0', '0', Nat.digitChar (n / 16), Nat.digitChar (n % 16)] = some n := by
  have high := hexValue?_digitChar (n / 16) (by omega)
  have low := hexValue?_digitChar (n % 16) (by omega)
  have zero : hexValue? '0' = some 0 := rfl
  simp only [hexNumber?, List.foldlM_cons, List.foldlM_nil, zero, high, low, Option.map_some,
    Option.bind_eq_bind, Option.bind_some, Option.pure_def]
  congr 1
  omega

theorem read?_escapeChar (c : Char) (rest : List Char) :
    read? (escapeChar c ++ rest) = (read? rest).map (lead (ofWritten c)) := by
  unfold escapeChar
  split
  case h_8 notQuote notBackslash notB notF notN notR notT =>
    split
    next control =>
      have unit : isUnit c = true := by
        simp only [isUnit, decide_eq_true control, Bool.true_and, Bool.not_eq_true',
          List.contains_eq_mem, List.mem_cons, List.not_mem_nil, or_false, decide_eq_false_iff_not,
          not_or]
        exact ⟨notB, notF, notN, notR, notT⟩
      have small : c.toNat < 32 := control
      show read? ('\\' :: 'u' :: '0' :: '0' :: _ :: _ :: rest) = _
      rw [read?, hexNumber?_low small, ofWritten, if_pos unit]
      rfl
    next printed =>
      have plain : isUnit c = false := by simp [isUnit, printed]
      rw [ofWritten, if_neg (by simp [plain]), List.singleton_append]
      -- neither a quote nor a backslash, so none of the equations for these applies
      rw [read?.eq_5 c rest notQuote (fun _ _ _ _ _ same _ => notBackslash same)
        (fun _ _ same _ => notBackslash same), if_neg printed]
  all_goals rfl

theorem read?_written (chars rest : List Char) :
    read? (chars.flatMap escapeChar ++ '"' :: rest) = some (chars.map ofWritten, rest) := by
  induction chars with
  | nil => rfl
  | cons c chars ih =>
    rw [List.flatMap_cons, List.append_assoc, read?_escapeChar, ih]
    rfl

theorem chars?_cons_ofWritten (c : Char) (pieces : List Piece) :
    chars? (ofWritten c :: pieces) = (chars? pieces).map (c :: ·) := by
  unfold ofWritten
  split
  next control =>
    have small : c.toNat < 32 := by
      have : c < ' ' := by
        simp only [isUnit, Bool.and_eq_true, decide_eq_true_eq] at control
        exact control.1
      exact this
    have opens : opensPair c.toNat = false := by
      unfold opensPair
      simp only [Bool.and_eq_false_iff, decide_eq_false_iff_not]
      omega
    have closes : closesPair c.toNat = false := by
      unfold closesPair
      simp only [Bool.and_eq_false_iff, decide_eq_false_iff_not]
      omega
    rw [chars?.eq_def]
    simp only [opens, closes, Bool.false_eq_true, if_false, Char.ofNat_toNat]
  next => rfl

theorem chars?_written (chars : List Char) : chars? (chars.map ofWritten) = some chars := by
  induction chars with
  | nil => rfl
  | cons c chars ih =>
    rw [List.map_cons, chars?_cons_ofWritten, ih]
    rfl

end Piece

/-! ## Numbers -/

namespace Numeral

/-- The digits of a natural number, the first one leading. -/
def digitsOf (n : Nat) : List Nat := (Nat.toDigits 10 n).map digitValue

/-- What may follow a number: nothing that could belong to it. -/
def EndsNumber (rest : List Char) : Prop := ∀ c ∈ rest.head?, c ∈ [',', ']', '\x7d']

theorem digitValue_digitChar : ∀ n : Nat, n < 10 → digitValue n.digitChar = n := by decide

theorem digitsOf_of_lt {n : Nat} (small : n < 10) : digitsOf n = [n] := by
  rw [digitsOf, Nat.toDigits_of_lt_base small, List.map_singleton, digitValue_digitChar n small]

theorem digitsOf_of_le {n : Nat} (large : 10 ≤ n) :
    digitsOf n = digitsOf (n / 10) ++ [n % 10] := by
  have last := digitValue_digitChar (n % 10) (Nat.mod_lt n (by decide))
  rw [digitsOf, Nat.toDigits_of_base_le (by decide) large, List.map_append, List.map_singleton,
    last, digitsOf]

theorem digitsOf_ne_nil (n : Nat) : digitsOf n ≠ [] := by
  intro none
  exact Nat.toDigits_ne_nil (List.map_eq_nil_iff.mp none)

theorem head?_digitsOf (n : Nat) (notZero : n ≠ 0) : (digitsOf n).head? ≠ some 0 := by
  -- by induction on the number without its last digit
  induction n using Nat.strongRecOn with
  | ind n ih =>
    rcases Nat.lt_or_ge n 10 with small | large
    · rw [digitsOf_of_lt small]
      intro zero
      exact notZero (Option.some.inj zero)
    · have front := ih (n / 10) (by omega) (by omega)
      cases split : digitsOf (n / 10) with
      | nil => exact absurd split (digitsOf_ne_nil _)
      | cons digit digits =>
        rw [split] at front
        rwa [digitsOf_of_le large, split]

theorem gather_append (digits more : List Nat) (significand gathered : Nat)
    (all : gather significand digits = (gathered, [])) :
    gather significand (digits ++ more) = gather gathered more := by
  induction digits generalizing significand with
  | nil =>
    obtain rfl : significand = gathered := congrArg Prod.fst all
    rfl
  | cons digit digits ih =>
    simp only [gather] at all
    split at all
    next fitting =>
      rw [List.cons_append, gather, if_pos fitting]
      exact ih _ all
    next => cases all

/-- The digits of a number that fits are gathered into the number. -/
theorem gather_digitsOf (n : Nat) (fitting : n < 18446744073709551616) :
    gather 0 (digitsOf n) = (n, []) := by
  induction n using Nat.strongRecOn with
  | ind n ih =>
    rcases Nat.lt_or_ge n 10 with small | large
    · rw [digitsOf_of_lt small, gather, if_pos (by omega), Nat.mul_zero, Nat.zero_add, gather]
    · have whole : 10 * (n / 10) + n % 10 = n := Nat.div_add_mod n 10
      rw [digitsOf_of_le large, gather_append _ _ _ _ (ih (n / 10) (by omega) (by omega)), gather,
        whole, if_pos fitting, gather]

theorem not_isDigit_of_endsNumber {rest : List Char} (ends : EndsNumber rest) (c : Char)
    (first : rest.head? = some c) : c.isDigit = false := by
  have possible := ends c first
  simp only [List.mem_cons, List.not_mem_nil, or_false] at possible
  rcases possible with rfl | rfl | rfl <;> rfl

theorem spanDigits_toDigits (n : Nat) {rest : List Char} (ends : EndsNumber rest) :
    spanDigits (Nat.toDigits 10 n ++ rest) = (digitsOf n, rest) := by
  have digits : ∀ c ∈ Nat.toDigits 10 n, c.isDigit = true := by
    intro c member
    exact Nat.isDigit_of_mem_toDigits (by decide) (by decide) member
  have none : rest.takeWhile Char.isDigit = [] ∧ rest.dropWhile Char.isDigit = rest := by
    cases rest with
    | nil => exact ⟨rfl, rfl⟩
    | cons c rest =>
      have other := not_isDigit_of_endsNumber ends c rfl
      exact ⟨List.takeWhile_cons_of_neg (by simp [other]),
        List.dropWhile_cons_of_neg (by simp [other])⟩
  rw [spanDigits, List.takeWhile_append_of_pos digits, List.dropWhile_append_of_pos digits,
    none.1, none.2, List.append_nil, digitsOf]

theorem whole?_toDigits (n : Nat) {rest : List Char} (ends : EndsNumber rest) :
    whole? (Nat.toDigits 10 n ++ rest) = some (digitsOf n, rest) := by
  have some : digits? (Nat.toDigits 10 n ++ rest) = some (digitsOf n, rest) := by
    rw [digits?, spanDigits_toDigits n ends, if_neg]
    simpa using digitsOf_ne_nil n
  have leads : (digitsOf n).head? ≠ Option.some 0 ∨ (digitsOf n).length = 1 := by
    by_cases zero : n = 0
    · subst zero
      exact .inr rfl
    · exact .inl (head?_digitsOf n zero)
  rw [whole?, some, Option.filter_some, if_pos (by simpa using leads)]

/-- A written number is read as its digits, without a sign, a fraction or an exponent. -/
theorem read?_toDigits (n : Nat) {rest : List Char} (ends : EndsNumber rest) :
    read? (Nat.toDigits 10 n ++ rest) = some (⟨false, digitsOf n, none, none⟩, rest) := by
  have noSign : spanMinus (Nat.toDigits 10 n ++ rest) = (false, Nat.toDigits 10 n ++ rest) := by
    cases split : Nat.toDigits 10 n with
    | nil => exact absurd split Nat.toDigits_ne_nil
    | cons c digits =>
      have digit : c.isDigit = true :=
        Nat.isDigit_of_mem_toDigits (by decide) (by decide) (split ▸ List.mem_cons_self)
      rw [List.cons_append, spanMinus]
      rintro tail same
      cases (List.cons.inj same).1
      exact absurd digit (by decide)
  have noFraction : fraction? rest = some (none, rest) := by
    rw [fraction?]
    rintro tail rfl
    exact absurd (ends '.' rfl) (by decide)
  have noExponent : exponent? rest = some (none, rest) := by
    cases rest with
    | nil => rfl
    | cons c rest =>
      rw [exponent?, if_neg]
      rintro (rfl | rfl)
      · exact absurd (ends 'e' rfl) (by decide)
      · exact absurd (ends 'E' rfl) (by decide)
  simp only [read?, noSign, whole?_toDigits n ends, noFraction, noExponent, Option.bind_some,
    Option.map_some]

theorem value?_digitsOf (n : Nat) (fitting : n < 18446744073709551616) :
    value? ⟨false, digitsOf n, none, none⟩ = some (.integer n) := by
  simp only [value?, gather_digitsOf n fitting]
  rfl

end Numeral

end DeclarationDocs.Json
