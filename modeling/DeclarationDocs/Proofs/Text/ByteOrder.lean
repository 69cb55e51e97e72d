import DeclarationDocs.Catalog

/-!
# The order of texts by bytes

Texts are compared character by character, the first difference deciding. Comparing the bytes by
which they are encoded gives the same order: the first byte of a character tells its length, longer
encodings belong to larger characters, and the bytes of equally long ones are digits in base 64, the
highest first.

Main statement: `Text.lt_iff_bytes_lt`.
-/

namespace DeclarationDocs.Text

/-- The bytes by which a text is encoded. -/
def bytes (text : String) : List UInt8 := text.toUTF8.data.toList

theorem bytes_eq (text : String) : bytes text = text.toList.flatMap String.utf8EncodeChar := by
  unfold bytes
  rw [String.toUTF8_eq_toByteArray, ← String.utf8Encode_toList, List.utf8Encode,
    List.toList_data_toByteArray]

/-! ## Bytes and digits -/

theorem byte_lt_iff {m n : Nat} (small : m < 256) (small' : n < 256) :
    UInt8.ofNat m < UInt8.ofNat n ↔ m < n := by
  rw [UInt8.lt_iff_toNat_lt, UInt8.toNat_ofNat', UInt8.toNat_ofNat', Nat.mod_eq_of_lt small,
    Nat.mod_eq_of_lt small']

theorem byte_eq_iff {m n : Nat} (small : m < 256) (small' : n < 256) :
    UInt8.ofNat m = UInt8.ofNat n ↔ m = n := by
  rw [← UInt8.toNat_inj, UInt8.toNat_ofNat', UInt8.toNat_ofNat', Nat.mod_eq_of_lt small,
    Nat.mod_eq_of_lt small']

theorem lt_or_of_lt {v w : Nat} (less : v < w) :
    v / 64 < w / 64 ∨ v / 64 = w / 64 ∧ v % 64 < w % 64 := by
  omega

theorem digits_of_eq {v w : Nat} (same : v / 64 = w / 64) :
    v / 64 / 64 = w / 64 / 64 ∧ v / 64 % 64 = w / 64 % 64 := by
  rw [same]
  exact ⟨rfl, rfl⟩

/-- Numbers are compared digit by digit in base 64, the highest digit first. -/
theorem digits_lt_of_lt {v w : Nat} (less : v < w) :
    v / 262144 < w / 262144 ∨ v / 262144 = w / 262144 ∧ (v / 4096 % 64 < w / 4096 % 64
      ∨ v / 4096 % 64 = w / 4096 % 64 ∧ (v / 64 % 64 < w / 64 % 64
        ∨ v / 64 % 64 = w / 64 % 64 ∧ v % 64 < w % 64)) := by
  rw [show 262144 = 64 * 64 * 64 from rfl, show 4096 = 64 * 64 from rfl, ← Nat.div_div_eq_div_mul,
    ← Nat.div_div_eq_div_mul, ← Nat.div_div_eq_div_mul, ← Nat.div_div_eq_div_mul]
  rcases lt_or_of_lt less with less | ⟨same, less⟩
  · rcases lt_or_of_lt less with less | ⟨same, less⟩
    · rcases lt_or_of_lt less with less | ⟨same, less⟩
      · exact .inl less
      · exact .inr ⟨same, .inl less⟩
    · obtain ⟨high, low⟩ := digits_of_eq same
      exact .inr ⟨high, .inr ⟨low, .inl less⟩⟩
  · obtain ⟨above, low⟩ := digits_of_eq same
    obtain ⟨high, middle⟩ := digits_of_eq above
    exact .inr ⟨high, .inr ⟨middle, .inr ⟨low, less⟩⟩⟩

/-! ## Characters and texts -/

/-- The encoding of a smaller character comes first, whatever follows. -/
theorem encoded_lt {c d : Char} (less : c < d) (front back : List UInt8) :
    String.utf8EncodeChar c ++ front < String.utf8EncodeChar d ++ back := by
  have less : c.val.toNat < d.val.toNat := less
  have bound : d.val.toNat < 0x110000 := by
    rcases d.valid with low | high
    · exact Nat.lt_trans low (by decide)
    · exact high.2
  unfold String.utf8EncodeChar
  generalize c.val.toNat = v at *
  generalize d.val.toNat = w at *
  have digits := digits_lt_of_lt less
  have highest : v / 262144 % 8 = v / 262144 := Nat.mod_eq_of_lt (by omega)
  have highest' : w / 262144 % 8 = w / 262144 := Nat.mod_eq_of_lt (by omega)
  -- sixteen pairs of lengths; where the first one is longer the hypotheses clash
  dsimp only
  repeat' split
  all_goals
    simp (disch := omega) only [List.cons_append, List.nil_append, List.cons_lt_cons_iff,
      byte_lt_iff, byte_eq_iff]
    omega

theorem encode_lt_of_lt {left right : List Char} (less : left < right) :
    left.flatMap String.utf8EncodeChar < right.flatMap String.utf8EncodeChar := by
  induction left generalizing right with
  | nil =>
    cases right with
    | nil => exact absurd less (List.lt_irrefl [])
    | cons d right =>
      rw [List.flatMap_nil, List.flatMap_cons]
      cases encoded : String.utf8EncodeChar d with
      | nil => exact absurd encoded String.utf8EncodeChar_ne_nil
      | cons byte bytes => exact List.nil_lt_cons _ _
  | cons c left ih =>
    cases right with
    | nil => exact absurd less (List.not_lt_nil _)
    | cons d right =>
      rw [List.flatMap_cons, List.flatMap_cons]
      rcases List.cons_lt_cons_iff.mp less with first | ⟨rfl, rest⟩
      · exact encoded_lt first _ _
      · exact List.append_left_lt (ih rest)

theorem lt_iff_bytes_lt (left right : String) : left < right ↔ bytes left < bytes right := by
  rw [bytes_eq, bytes_eq]
  constructor
  · intro less
    exact encode_lt_of_lt less
  · intro less
    by_cases before : left < right
    · exact before
    · by_cases greater : right < left
      · exact absurd (List.lt_trans less (encode_lt_of_lt greater)) (List.lt_irrefl _)
      · rw [KeyOrder.eq_of_not_lt before greater] at less
        exact absurd less (List.lt_irrefl _)

end DeclarationDocs.Text
