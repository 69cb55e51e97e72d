import DeclarationDocs.Proofs.Json.Documents

/-!
# Scanning on

A text that is scanned without junk is scanned the same way in front of a comma, a colon or a
closing bracket, and scanning then goes on behind it. Strings and words end by themselves; only a
number has to be told from what follows it.

Main statement: `Token.scan_append`.
-/

namespace DeclarationDocs.Json

/-- What may follow a text in a document: nothing that could belong to its last token. -/
def EndsToken (rest : List Char) : Prop := ∀ c ∈ rest.head?, c ∈ [',', ':', ']', '\x7d']

theorem EndsToken.head_ne {rest : List Char} (ends : EndsToken rest) {c : Char}
    (inside : c ∉ [',', ':', ']', '\x7d']) (tail : List Char) : rest ≠ c :: tail := by
  rintro rfl
  exact inside (ends c rfl)

theorem EndsToken.cons {c : Char} (outside : c ∈ [',', ':', ']', '\x7d']) (rest : List Char) :
    EndsToken (c :: rest) := by
  intro first same
  exact Option.some.inj same ▸ outside

theorem EndsToken.not_isDigit {rest : List Char} (ends : EndsToken rest) {c : Char}
    (first : rest.head? = some c) : c.isDigit = false := by
  have possible := ends c first
  simp only [List.mem_cons, List.not_mem_nil, or_false] at possible
  rcases possible with rfl | rfl | rfl | rfl <;> rfl

/-! ## Strings -/

theorem Piece.read?_append {text left : List Char} {pieces : List Piece}
    (done : read? text = some (pieces, left)) (rest : List Char) :
    read? (text ++ rest) = some (pieces, left ++ rest) := by
  fun_induction read? text generalizing pieces left with
  | case1 => cases done
  | case2 tail =>
    cases done
    rfl
  | case3 a b c d tail ih =>
    obtain ⟨code, number, done⟩ := Option.bind_eq_some_iff.mp done
    obtain ⟨⟨more, behind⟩, read, same⟩ := Option.map_eq_some_iff.mp done
    cases same
    simp only [List.cons_append, read?, number, ih read, Option.bind_some, Option.map_some, lead]
  | case4 escape tail notUnit ih =>
    obtain ⟨c, short, done⟩ := Option.bind_eq_some_iff.mp done
    obtain ⟨⟨more, behind⟩, read, same⟩ := Option.map_eq_some_iff.mp done
    cases same
    -- the letter of a unit is no short escape, so more text makes no unit of it
    have other : escape ≠ 'u' := by
      rintro rfl
      cases short
    rw [List.cons_append, List.cons_append, read?.eq_4 _ _ (fun _ _ _ _ _ same _ => other same),
      short, ih read]
    rfl
  | case5 => cases done
  | case6 c tail notQuote notUnit notEscape printed ih =>
    obtain ⟨⟨more, behind⟩, read, same⟩ := Option.map_eq_some_iff.mp done
    cases same
    -- a backslash at the very end is not followed by a closing quote
    have noBackslash : c ≠ '\\' := by
      rintro rfl
      cases tail with
      | nil => cases read
      | cons escape tail => exact notEscape escape tail rfl rfl
    rw [List.cons_append, read?.eq_5 c _ notQuote (fun _ _ _ _ _ same _ => noBackslash same)
      (fun _ _ same _ => noBackslash same), if_neg printed, ih read]
    rfl

/-! ## Numbers -/

namespace Numeral

variable {rest : List Char}

theorem spanDigits_append (ends : EndsToken rest) (text : List Char) :
    spanDigits (text ++ rest) = ((spanDigits text).1, (spanDigits text).2 ++ rest) := by
  unfold spanDigits
  induction text with
  | nil =>
    cases rest with
    | nil => rfl
    | cons c rest =>
      have other := ends.not_isDigit rfl
      simp [other]
  | cons c text ih =>
    by_cases digit : c.isDigit
    · simpa [digit] using ih
    · simp [digit]

theorem digits?_append (ends : EndsToken rest) {text left : List Char} {found : List Nat}
    (done : digits? text = some (found, left)) :
    digits? (text ++ rest) = some (found, left ++ rest) := by
  unfold digits? at done ⊢
  rw [spanDigits_append ends]
  split at done
  next => cases done
  next some =>
    rw [if_neg some, Option.some.inj done]

theorem whole?_append (ends : EndsToken rest) {text left : List Char} {found : List Nat}
    (done : whole? text = some (found, left)) :
    whole? (text ++ rest) = some (found, left ++ rest) := by
  obtain ⟨done, leads⟩ := Option.filter_eq_some_iff.mp done
  rw [whole?, digits?_append ends done, Option.filter_some, if_pos leads]

theorem fraction?_append (ends : EndsToken rest) {text left : List Char}
    {found : Option (List Nat)} (done : fraction? text = some (found, left)) :
    fraction? (text ++ rest) = some (found, left ++ rest) := by
  unfold fraction? at done
  split at done
  next tail =>
    obtain ⟨⟨digits, behind⟩, read, same⟩ := Option.map_eq_some_iff.mp done
    cases same
    rw [List.cons_append, fraction?, digits?_append ends read]
    rfl
  next noPoint =>
    cases done
    rw [fraction?]
    intro tail same
    cases text with
    | nil => exact ends.head_ne (by decide) tail same
    | cons c text => exact noPoint text (by rw [(List.cons.inj same).1])

theorem spanMinus_append {text : List Char} (some : text ≠ []) (rest : List Char) :
    spanMinus (text ++ rest) = ((spanMinus text).1, (spanMinus text).2 ++ rest) := by
  cases text with
  | nil => exact absurd rfl some
  | cons c text =>
    by_cases minus : c = '-'
    · subst minus
      rfl
    · have noMinus : ∀ text, spanMinus (c :: text) = (false, c :: text) := by
        intro text
        rw [spanMinus]
        exact fun tail same => minus (List.cons.inj same).1
      rw [List.cons_append, noMinus, noMinus]
      rfl

theorem spanSign_append {text : List Char} (some : text ≠ []) (rest : List Char) :
    spanSign (text ++ rest) = ((spanSign text).1, (spanSign text).2 ++ rest) := by
  cases text with
  | nil => exact absurd rfl some
  | cons c text =>
    by_cases plus : c = '+'
    · subst plus
      rfl
    · have noPlus : ∀ text, spanSign (c :: text) = spanMinus (c :: text) := by
        intro text
        rw [spanSign]
        exact fun tail same => plus (List.cons.inj same).1
      rw [List.cons_append, noPlus, noPlus]
      exact spanMinus_append some rest

theorem exponent?_append (ends : EndsToken rest) {text left : List Char} {found : Option Int}
    (done : exponent? text = some (found, left)) :
    exponent? (text ++ rest) = some (found, left ++ rest) := by
  cases text with
  | nil =>
    cases done
    cases rest with
    | nil => rfl
    | cons c rest =>
      rw [List.nil_append, exponent?, if_neg]
      rintro (rfl | rfl)
      · exact ends.head_ne (by decide) _ rfl
      · exact ends.head_ne (by decide) _ rfl
  | cons c text =>
    rw [exponent?] at done
    rw [List.cons_append, exponent?]
    split at done
    next marked =>
      obtain ⟨⟨digits, behind⟩, read, same⟩ := Option.map_eq_some_iff.mp done
      cases same
      have some : text ≠ [] := by
        rintro rfl
        cases read
      rw [if_pos marked, spanSign_append some, digits?_append ends read]
      rfl
    next unmarked =>
      cases done
      rw [if_neg unmarked]
      rfl

theorem read?_append (ends : EndsToken rest) {text left : List Char} {numeral : Numeral}
    (done : read? text = some (numeral, left)) :
    read? (text ++ rest) = some (numeral, left ++ rest) := by
  obtain ⟨⟨whole, afterWhole⟩, readWhole, done⟩ := Option.bind_eq_some_iff.mp done
  obtain ⟨⟨fraction, afterFraction⟩, readFraction, done⟩ := Option.bind_eq_some_iff.mp done
  obtain ⟨⟨exponent, behind⟩, readExponent, same⟩ := Option.map_eq_some_iff.mp done
  cases same
  have some : text ≠ [] := by
    rintro rfl
    cases readWhole
  simp only [read?, spanMinus_append some, whole?_append ends readWhole,
    fraction?_append ends readFraction, exponent?_append ends readExponent, Option.bind_some,
    Option.map_some]

end Numeral

/-! ## Tokens -/

namespace Token

theorem afterWord?_append {letters text left : List Char}
    (done : afterWord? letters text = some left) (rest : List Char) :
    afterWord? letters (text ++ rest) = some (left ++ rest) := by
  fun_induction afterWord? letters text with
  | case1 =>
    cases done
    rw [afterWord?]
  | case2 => cases done
  | case3 letters c text ih => simpa [afterWord?] using ih done
  | case4 => cases done

theorem word_append {token : Token} {letters text left : List Char} {found : Token}
    (starts : word token letters text = (found, left)) (sound : found ≠ junk) (rest : List Char) :
    word token letters (text ++ rest) = (found, left ++ rest) := by
  unfold word at starts ⊢
  split at starts
  next done =>
    cases starts
    rw [afterWord?_append done]
  next =>
    cases starts
    exact absurd rfl sound

theorem start_append {c : Char} {text left rest : List Char} {token : Token}
    (starts : start c text = (token, left)) (sound : token ≠ junk) (ends : EndsToken rest) :
    start c (text ++ rest) = (token, left ++ rest) := by
  unfold start at starts ⊢
  split at starts
  case h_7 => exact word_append starts sound rest
  case h_8 => exact word_append starts sound rest
  case h_9 => exact word_append starts sound rest
  case h_10 =>
    split at starts
    next done =>
      cases starts
      rw [Piece.read?_append done]
    next =>
      cases starts
      exact absurd rfl sound
  case h_11 =>
    split at starts
    next done =>
      cases starts
      rw [← List.cons_append, Numeral.read?_append ends done]
    next =>
      cases starts
      exact absurd rfl sound
  all_goals
    cases starts
    rfl

/-- A text without junk is scanned by itself, whatever may follow. -/
theorem scan_append {text rest : List Char} (sound : junk ∉ scan text) (ends : EndsToken rest) :
    scan (text ++ rest) = scan text ++ scan rest := by
  induction text using scan.induct with
  | case1 => simp only [scan, List.nil_append]
  | case2 c text blank ih =>
    rw [scan, if_pos blank] at sound
    rw [List.cons_append, scan, if_pos blank, ih sound, scan, if_pos blank]
  | case3 c text solid broken =>
    rw [scan, if_neg solid, broken] at sound
    exact absurd (List.mem_singleton_self junk) sound
  | case4 c text solid whole ih =>
    have solid : isBlank c = false := Bool.eq_false_iff.mpr solid
    have scanned := scan_cons solid (Prod.eta (start c text)).symm whole
    rw [scanned] at sound ⊢
    have started := start_append (Prod.eta (start c text)).symm whole ends
    rw [List.cons_append, scan_cons solid started whole,
      ih fun later => sound (List.mem_cons_of_mem _ later)]
    rfl

end Token

end DeclarationDocs.Json
