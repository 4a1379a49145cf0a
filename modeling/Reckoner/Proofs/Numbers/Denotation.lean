import Mathlib.Algebra.Order.Field.Rat
import Mathlib.Data.List.TakeWhile
import Mathlib.Tactic.FieldSimp
import Mathlib.Tactic.NormNum
import Mathlib.Tactic.Ring
import Reckoner.Number.Numeral

/-! What the texts of numbers denote, as a grammar: a sign, and then a word or digits with a point
and a power of ten, most of which may be missing. Each text that is in the grammar denotes one
thing, and the reader finds it.
-/

namespace Reckoner
namespace Numeral

-----------------------------------------------------------------------------------------
-- The grammar
-----------------------------------------------------------------------------------------

/-- A sign, which may be missing, and whether it is a minus. -/
inductive DenotesSign : List Char → Bool → Prop
  | absent : DenotesSign [] false
  | plus : DenotesSign ['+'] false
  | minus : DenotesSign ['-'] true

/-- The natural number that digits denote. -/
def natural (digits : List Char) : ℕ :=
  Nat.ofDigitChars 10 digits 0

/-- A power of ten, which may be missing, and its exponent. -/
inductive DenotesPower : List Char → ℤ → Prop
  | absent : DenotesPower [] 0
  | written {mark : Char} {sign digits : List Char} {negative : Bool}
    (letter : mark = 'e' ∨ mark = 'E') (signed : DenotesSign sign negative)
    (nonempty : digits ≠ []) (all : ∀ c ∈ digits, c.isDigit)
    : DenotesPower (mark :: (sign ++ digits))
        (if negative then -natural digits else natural digits)

/-- Digits with a point among them, before them or behind them, or without one, and a power of
ten; and the rational number that they denote.
-/
inductive DenotesMagnitude : List Char → ℚ → Prop
  | whole {digits power : List Char} {exponent : ℤ} (nonempty : digits ≠ [])
    (all : ∀ c ∈ digits, c.isDigit) (scaled : DenotesPower power exponent)
    : DenotesMagnitude (digits ++ power) (natural digits * 10 ^ exponent)
  | pointed {digits fraction power : List Char} {exponent : ℤ}
    (nonempty : digits ++ fraction ≠ []) (all : ∀ c ∈ digits ++ fraction, c.isDigit)
    (scaled : DenotesPower power exponent)
    : DenotesMagnitude (digits ++ '.' :: (fraction ++ power))
        ((natural digits + natural fraction / 10 ^ fraction.length) * 10 ^ exponent)

/-- A word in any mix of cases. -/
def Spells (word : String) (text : List Char) : Prop :=
  List.Forall₂ (fun c letter => c = letter ∨ c = letter.toUpper) text word.toList

/-- What the text of a number can denote. -/
inductive Meaning
  | rational (negative : Bool) (magnitude : ℚ)
  | infinite (negative : Bool)
  | nan

/-- The texts of numbers, and what they denote. -/
inductive Denotes : List Char → Meaning → Prop
  | rational {sign body : List Char} {negative : Bool} {magnitude : ℚ}
    (signed : DenotesSign sign negative) (denotes : DenotesMagnitude body magnitude)
    : Denotes (sign ++ body) (.rational negative magnitude)
  | infinite {sign body : List Char} {negative : Bool} (signed : DenotesSign sign negative)
    (spells : Spells "inf" body ∨ Spells "infinity" body)
    : Denotes (sign ++ body) (.infinite negative)
  | nan {sign body : List Char} {negative : Bool} (signed : DenotesSign sign negative)
    (spells : Spells "nan" body)
    : Denotes (sign ++ body) .nan

end Numeral

/-- The rational number that a decimal magnitude is. -/
def Decimal.toRat (d : Decimal) : ℚ :=
  d.coefficient * 10 ^ d.exponent

namespace Numeral

/-- What a numeral says, as a rational number if it is one. -/
def meaning : Numeral → Meaning
  | decimal negative magnitude => .rational negative magnitude.toRat
  | infinite negative => .infinite negative
  | nan => .nan

-----------------------------------------------------------------------------------------
-- Signs
-----------------------------------------------------------------------------------------

/-- A text is split behind its sign. -/
theorem exists_sign (text : List Char)
    : ∃ sign, DenotesSign sign (splitSign text).1 ∧ text = sign ++ (splitSign text).2 := by
  unfold splitSign
  split
  · exact ⟨_, .minus, rfl⟩
  · exact ⟨_, .plus, rfl⟩
  · exact ⟨_, .absent, rfl⟩

/-- A sign is split off what does not begin with one. -/
theorem splitSign_append {sign body : List Char} {negative : Bool}
    (signed : DenotesSign sign negative) (plain : ∀ c ∈ body.head?, c ≠ '-' ∧ c ≠ '+')
    : splitSign (sign ++ body) = (negative, body) := by
  cases signed with
  | minus | plus => rfl
  | absent =>
      rw [List.nil_append]
      unfold splitSign
      split
      · exact absurd rfl (plain _ rfl).1
      · exact absurd rfl (plain _ rfl).2
      · rfl

theorem isDigit_ne {c other : Char} (digit : c.isDigit) (apart : other.isDigit = false)
    : c ≠ other := by
  rintro rfl
  rw [apart] at digit
  cases digit

theorem splitSign_append_of_digits {sign digits : List Char} {negative : Bool}
    (signed : DenotesSign sign negative) (all : ∀ c ∈ digits, c.isDigit)
    : splitSign (sign ++ digits) = (negative, digits) :=
  splitSign_append signed fun c first =>
    have digit := all c (List.mem_of_mem_head? first)
    ⟨isDigit_ne digit rfl, isDigit_ne digit rfl⟩

-----------------------------------------------------------------------------------------
-- Powers of ten
-----------------------------------------------------------------------------------------

/-- The reader of powers of ten finds the exponent of each power that is in the grammar. -/
theorem readExponent_eq_some_iff {text : List Char} {exponent : ℤ}
    : readExponent text = some exponent ↔ DenotesPower text exponent := by
  constructor
  · intro reads
    cases text with
    | nil =>
        cases reads
        exact .absent
    | cons mark rest =>
        obtain ⟨sign, signed, joined⟩ := exists_sign rest
        rw [readExponent] at reads
        generalize splitSign rest = parts at signed joined reads
        obtain ⟨negative, digits⟩ := parts
        simp only [Bool.and_eq_true, Bool.or_eq_true, beq_iff_eq, Bool.not_eq_true',
          List.isEmpty_eq_false_iff, List.all_eq_true, Option.ite_none_right_eq_some,
          Option.some.injEq] at reads
        obtain ⟨⟨⟨letter, nonempty⟩, all⟩, rfl⟩ := reads
        rw [joined]
        exact .written letter signed nonempty all
  · intro denotes
    cases denotes with
    | absent => rfl
    | written letter signed nonempty all =>
        simp only [readExponent, splitSign_append_of_digits signed all]
        rw [if_pos]
        · rfl
        · simpa [nonempty] using ⟨letter, all⟩

/-- A power of ten does not begin with a digit or a point. -/
theorem DenotesPower.head {text : List Char} {exponent : ℤ} (denotes : DenotesPower text exponent)
    : ∀ c ∈ text.head?, c.isDigit = false ∧ c ≠ '.' := by
  cases denotes with
  | absent => nofun
  | written letter =>
      rintro c ⟨⟩
      rcases letter with rfl | rfl <;> decide

-----------------------------------------------------------------------------------------
-- Decimals
-----------------------------------------------------------------------------------------

/-- Digits end where another character comes. -/
theorem span_digits {digits rest : List Char} (all : ∀ c ∈ digits, c.isDigit)
    (behind : ∀ c ∈ rest.head?, c.isDigit = false)
    : (digits ++ rest).takeWhile Char.isDigit = digits
      ∧ (digits ++ rest).dropWhile Char.isDigit = rest := by
  rw [List.takeWhile_append_of_pos all, List.dropWhile_append_of_pos all]
  cases rest with
  | nil => exact ⟨List.append_nil _, rfl⟩
  | cons c rest =>
      have stop := behind c rfl
      rw [List.takeWhile_cons_of_neg (by rw [stop]; decide),
        List.dropWhile_cons_of_neg (by rw [stop]; decide)]
      exact ⟨List.append_nil _, rfl⟩

/-- The value of digits before and behind a point, which are read as the digits of one number. -/
theorem toRat_pointed (digits fraction : List Char) (exponent : ℤ)
    : ({ coefficient := Nat.ofDigitChars 10 (digits ++ fraction) 0,
         exponent := exponent - fraction.length } : Decimal).toRat
      = (natural digits + natural fraction / 10 ^ fraction.length) * 10 ^ exponent := by
  have ten : (10 : ℚ) ≠ 0 := by norm_num
  rw [Decimal.toRat, Nat.ofDigitChars_append, Nat.ofDigitChars_eq_ofDigitChars_zero,
    zpow_sub₀ ten, zpow_natCast, natural, natural]
  push_cast
  field_simp

theorem readDecimal_whole {digits power : List Char} {exponent : ℤ} (nonempty : digits ≠ [])
    (all : ∀ c ∈ digits, c.isDigit) (scaled : DenotesPower power exponent)
    : readDecimal (digits ++ power)
      = some { coefficient := natural digits, exponent := exponent } := by
  obtain ⟨taken, dropped⟩ := span_digits all fun c first => (scaled.head c first).1
  have unsplit : splitFraction power = ([], power) := by
    unfold splitFraction
    split
    · exact absurd rfl (scaled.head _ rfl).2
    · rfl
  simp [readDecimal, taken, dropped, unsplit, nonempty, readExponent_eq_some_iff.mpr scaled,
    natural]

theorem readDecimal_pointed {digits fraction power : List Char} {exponent : ℤ}
    (nonempty : digits ++ fraction ≠ []) (all : ∀ c ∈ digits ++ fraction, c.isDigit)
    (scaled : DenotesPower power exponent)
    : readDecimal (digits ++ '.' :: (fraction ++ power))
      = some { coefficient := Nat.ofDigitChars 10 (digits ++ fraction) 0
               exponent := exponent - fraction.length } := by
  rw [List.forall_mem_append] at all
  have point : ∀ c ∈ ('.' :: (fraction ++ power)).head?, c.isDigit = false := by
    rintro c ⟨⟩
    rfl
  obtain ⟨taken, dropped⟩ := span_digits all.1 point
  obtain ⟨taken', dropped'⟩ := span_digits all.2 fun c first => (scaled.head c first).1
  simp only [readDecimal, taken, dropped, splitFraction, taken', dropped', List.isEmpty_iff,
    nonempty, if_false, readExponent_eq_some_iff.mpr scaled, Option.map_some]

/-- A text is its digits and the text behind them, which may begin with a point. -/
theorem splitFraction_cases (text : List Char)
    : splitFraction text = ([], text)
      ∨ ∃ rest, text = '.' :: rest
        ∧ splitFraction text = (rest.takeWhile Char.isDigit, rest.dropWhile Char.isDigit) := by
  unfold splitFraction
  split
  · exact .inr ⟨_, rfl, rfl⟩
  · exact .inl rfl

theorem isDigit_of_mem_takeWhile {text : List Char}
    : ∀ c ∈ text.takeWhile Char.isDigit, c.isDigit :=
  fun _ member => List.mem_takeWhile_imp member

/-- The reader of decimals finds the magnitude of each one that is in the grammar. -/
theorem denotesMagnitude_iff {text : List Char} {magnitude : ℚ}
    : DenotesMagnitude text magnitude
      ↔ ∃ d, readDecimal text = some d ∧ d.toRat = magnitude := by
  constructor
  · intro denotes
    cases denotes with
    | whole nonempty all scaled => exact ⟨_, readDecimal_whole nonempty all scaled, rfl⟩
    | pointed nonempty all scaled =>
        exact ⟨_, readDecimal_pointed nonempty all scaled, toRat_pointed ..⟩
  · rintro ⟨d, reads, rfl⟩
    have joined : text.takeWhile Char.isDigit ++ text.dropWhile Char.isDigit = text :=
      List.takeWhile_append_dropWhile
    rw [readDecimal] at reads
    rcases splitFraction_cases (text.dropWhile Char.isDigit)
      with same | ⟨rest, pointed, same⟩
    · simp only [same, List.append_nil, List.isEmpty_iff, Option.ite_none_left_eq_some,
        Option.map_eq_some_iff, readExponent_eq_some_iff] at reads
      obtain ⟨nonempty, exponent, scaled, rfl⟩ := reads
      have denotes := DenotesMagnitude.whole nonempty isDigit_of_mem_takeWhile scaled
      rw [joined] at denotes
      simpa [Decimal.toRat, natural] using denotes
    · simp only [same, List.isEmpty_iff, Option.ite_none_left_eq_some,
        Option.map_eq_some_iff, readExponent_eq_some_iff] at reads
      obtain ⟨nonempty, exponent, scaled, rfl⟩ := reads
      have denotes := DenotesMagnitude.pointed nonempty
        (List.forall_mem_append.mpr ⟨isDigit_of_mem_takeWhile, isDigit_of_mem_takeWhile⟩) scaled
      rw [List.takeWhile_append_dropWhile, ← pointed, joined] at denotes
      rw [toRat_pointed]
      exact denotes

/-- A magnitude begins with a digit or a point, not with a sign or a letter. -/
theorem DenotesMagnitude.head_ne {text : List Char} {magnitude : ℚ}
    (denotes : DenotesMagnitude text magnitude) {one other : Char}
    (apart : one.isDigit = false ∧ one ≠ '.') (apart' : other.isDigit = false ∧ other ≠ '.')
    : ∀ first ∈ text.head?, first ≠ one ∧ first ≠ other := by
  have digit {c : Char} (digit : c.isDigit) : c ≠ one ∧ c ≠ other :=
    ⟨isDigit_ne digit apart.1, isDigit_ne digit apart'.1⟩
  cases denotes with
  | @whole digits power exponent nonempty all =>
      obtain ⟨first, rest, rfl⟩ := List.exists_cons_of_ne_nil nonempty
      rintro _ ⟨⟩
      exact digit (all first List.mem_cons_self)
  | @pointed digits fraction power exponent nonempty all =>
      cases digits with
      | nil =>
          rintro _ ⟨⟩
          exact ⟨apart.2.symm, apart'.2.symm⟩
      | cons first rest =>
          rintro _ ⟨⟩
          exact digit (all first List.mem_cons_self)

/-- Zeros in front of a magnitude change nothing. -/
theorem DenotesMagnitude.zeros_append {body : List Char} {magnitude : ℚ}
    (denotes : DenotesMagnitude body magnitude) (zeros : ℕ)
    : DenotesMagnitude (List.replicate zeros '0' ++ body) magnitude := by
  have front : ∀ c ∈ List.replicate zeros '0', c.isDigit := by
    intro c member
    rw [List.eq_of_mem_replicate member]
    rfl
  have same (digits : List Char)
      : natural (List.replicate zeros '0' ++ digits) = natural digits := by
    rw [natural, Nat.ofDigitChars_append, Nat.ofDigitChars_replicate_zero, Nat.mul_zero, natural]
  cases denotes with
  | @whole digits power exponent nonempty all scaled =>
      rw [← List.append_assoc, ← same digits]
      exact .whole (List.append_ne_nil_of_right_ne_nil _ nonempty)
        (List.forall_mem_append.mpr ⟨front, all⟩) scaled
  | @pointed digits fraction power exponent nonempty all scaled =>
      rw [← List.append_assoc, ← same digits]
      refine .pointed ?_ ?_ scaled
      · rw [List.append_assoc]
        exact List.append_ne_nil_of_right_ne_nil _ nonempty
      · rw [List.append_assoc]
        exact List.forall_mem_append.mpr ⟨front, all⟩

-----------------------------------------------------------------------------------------
-- Words
-----------------------------------------------------------------------------------------

theorem toUpper_toLower {c : Char} (upper : 'A'.val ≤ c.val ∧ c.val ≤ 'Z'.val)
    : c.toLower.toUpper = c := by
  have lowered : c.toLower.val = c.val + ('a'.val - 'A'.val) := by
    delta Char.toLower
    rw [dif_pos upper]
  have lower : 'a'.val ≤ c.toLower.val ∧ c.toLower.val ≤ 'z'.val := by
    rw [lowered]
    generalize c.val = v at upper
    simp only [UInt32.le_iff_toNat_le, UInt32.toNat_add, UInt32.toNat_sub, Char.reduceVal,
      UInt32.reduceToNat] at *
    omega
  have raised : c.toLower.toUpper.val = c.toLower.val + ('A'.val - 'a'.val) := by
    delta Char.toUpper
    rw [dif_pos lower]
  apply Char.ext
  rw [raised, lowered]
  grind

theorem toLower_toUpper {c : Char} (lower : 'a'.val ≤ c.val ∧ c.val ≤ 'z'.val)
    : c.toUpper.toLower = c := by
  have raised : c.toUpper.val = c.val + ('A'.val - 'a'.val) := by
    delta Char.toUpper
    rw [dif_pos lower]
  have upper : 'A'.val ≤ c.toUpper.val ∧ c.toUpper.val ≤ 'Z'.val := by
    rw [raised]
    generalize c.val = v at lower
    simp only [UInt32.le_iff_toNat_le, UInt32.toNat_add, UInt32.toNat_sub, Char.reduceVal,
      UInt32.reduceToNat] at *
    omega
  have lowered : c.toUpper.toLower.val = c.toUpper.val + ('a'.val - 'A'.val) := by
    delta Char.toLower
    rw [dif_pos upper]
  apply Char.ext
  rw [lowered, raised]
  grind

/-- The lower case of a character is a letter if the character is this letter or its upper case. -/
theorem toLower_eq_iff {c letter : Char} (lower : letter.isLower)
    : c.toLower = letter ↔ c = letter ∨ c = letter.toUpper := by
  obtain ⟨above, below⟩ := Bool.and_eq_true_iff.mp lower
  have lower : 'a'.val ≤ letter.val ∧ letter.val ≤ 'z'.val :=
    ⟨of_decide_eq_true above, of_decide_eq_true below⟩
  have apart : ¬ 'a'.val ≤ 'Z'.val := by decide
  constructor
  · rintro rfl
    by_cases upper : 'A'.val ≤ c.val ∧ c.val ≤ 'Z'.val
    · exact .inr (toUpper_toLower upper).symm
    · have same : c.toLower = c := dif_neg upper
      exact .inl same.symm
  · rintro (rfl | rfl)
    · exact dif_neg fun upper => apart (UInt32.le_trans lower.1 upper.2)
    · exact toLower_toUpper lower

/-- The reader finds a word in any mix of cases. -/
theorem isWord_iff {word : String} (lower : word.toList.all Char.isLower) {text : List Char}
    : isWord word text ↔ Spells word text := by
  rw [isWord, beq_iff_eq, Spells]
  generalize word.toList = letters at lower
  induction letters generalizing text with
  | nil => rw [List.map_eq_nil_iff, List.forall₂_nil_right_iff]
  | cons letter letters ih =>
      rw [List.all_cons, Bool.and_eq_true] at lower
      cases text with
      | nil => exact iff_of_false nofun nofun
      | cons c text =>
          rw [List.map_cons, List.cons.injEq, List.forall₂_cons, ih lower.2,
            toLower_eq_iff lower.1]

/-- A word begins with its first letter in one of the cases. -/
theorem Spells.head {word : String} {text letters : List Char} {letter : Char}
    (spells : Spells word text) (begins : word.toList = letter :: letters)
    : ∃ first, text.head? = some first ∧ (first = letter ∨ first = letter.toUpper) := by
  rw [Spells, begins] at spells
  cases spells with
  | cons same => exact ⟨_, rfl, same⟩

theorem Spells.head_ne {word : String} {text letters : List Char} {letter : Char}
    (spells : Spells word text) (begins : word.toList = letter :: letters) {one other : Char}
    (apart : letter ≠ one ∧ letter.toUpper ≠ one) (apart' : letter ≠ other ∧ letter.toUpper ≠ other)
    : ∀ first ∈ text.head?, first ≠ one ∧ first ≠ other := by
  obtain ⟨first, head, same⟩ := spells.head begins
  rw [head]
  rintro _ ⟨⟩
  rcases same with rfl | rfl
  · exact ⟨apart.1, apart'.1⟩
  · exact ⟨apart.2, apart'.2⟩

/-- What begins with another character is no word. -/
theorem isWord_eq_false {word : String} {text letters : List Char} {letter : Char}
    (lower : word.toList.all Char.isLower) (begins : word.toList = letter :: letters)
    (apart : ∀ first ∈ text.head?, first ≠ letter ∧ first ≠ letter.toUpper)
    : isWord word text = false := by
  rw [← Bool.not_eq_true, isWord_iff lower]
  intro spells
  obtain ⟨first, head, same⟩ := spells.head begins
  exact same.elim (apart first head).1 (apart first head).2

theorem isWord_inf {text : List Char}
    : isWord "inf" text ↔ Spells "inf" text :=
  isWord_iff rfl

theorem isWord_infinity {text : List Char}
    : isWord "infinity" text ↔ Spells "infinity" text :=
  isWord_iff rfl

theorem isWord_nan {text : List Char}
    : isWord "nan" text ↔ Spells "nan" text :=
  isWord_iff rfl

-----------------------------------------------------------------------------------------
-- Numbers
-----------------------------------------------------------------------------------------

theorem read?_append {sign body : List Char} {negative : Bool}
    (signed : DenotesSign sign negative) (plain : ∀ c ∈ body.head?, c ≠ '-' ∧ c ≠ '+')
    : read? (sign ++ body)
      = if isWord "inf" body || isWord "infinity" body then some (.infinite negative)
        else if isWord "nan" body then some .nan
        else (readDecimal body).map (.decimal negative) := by
  rw [read?, splitSign_append signed plain]

theorem read?_of_denotesMagnitude {sign body : List Char} {negative : Bool} {magnitude : ℚ}
    (signed : DenotesSign sign negative) (denotes : DenotesMagnitude body magnitude)
    : read? (sign ++ body) = (readDecimal body).map (.decimal negative) := by
  rw [read?_append signed (denotes.head_ne (by decide) (by decide)),
    isWord_eq_false rfl rfl (denotes.head_ne (by decide) (by decide)),
    isWord_eq_false rfl rfl (denotes.head_ne (by decide) (by decide)),
    isWord_eq_false rfl rfl (denotes.head_ne (by decide) (by decide))]
  rfl

theorem read?_of_infinite {sign body : List Char} {negative : Bool}
    (signed : DenotesSign sign negative) (spells : Spells "inf" body ∨ Spells "infinity" body)
    : read? (sign ++ body) = some (.infinite negative) := by
  have plain : ∀ c ∈ body.head?, c ≠ '-' ∧ c ≠ '+' :=
    spells.elim (fun inf => inf.head_ne rfl (by decide) (by decide))
      fun infinity => infinity.head_ne rfl (by decide) (by decide)
  rw [read?_append signed plain, if_pos]
  rwa [Bool.or_eq_true, isWord_inf, isWord_infinity]

theorem read?_of_nan {sign body : List Char} {negative : Bool}
    (signed : DenotesSign sign negative) (spells : Spells "nan" body)
    : read? (sign ++ body) = some .nan := by
  rw [read?_append signed (spells.head_ne rfl (by decide) (by decide)),
    isWord_eq_false rfl rfl (spells.head_ne rfl (by decide) (by decide)),
    isWord_eq_false rfl rfl (spells.head_ne rfl (by decide) (by decide)),
    isWord_nan.mpr spells]
  rfl

/-- The reader finds what a text denotes, and finds nothing in a text that is not in the grammar.
-/
theorem denotes_iff {text : List Char} {meaning : Meaning}
    : Denotes text meaning
      ↔ ∃ numeral, read? text = some numeral ∧ numeral.meaning = meaning := by
  constructor
  · intro denotes
    cases denotes with
    | rational signed denotes =>
        obtain ⟨d, reads, rfl⟩ := denotesMagnitude_iff.mp denotes
        refine ⟨.decimal _ d, ?_, rfl⟩
        rw [read?_of_denotesMagnitude signed denotes, reads, Option.map_some]
    | infinite signed spells => exact ⟨_, read?_of_infinite signed spells, rfl⟩
    | nan signed spells => exact ⟨_, read?_of_nan signed spells, rfl⟩
  · rintro ⟨numeral, reads, rfl⟩
    obtain ⟨sign, signed, joined⟩ := exists_sign text
    rw [read?] at reads
    generalize splitSign text = parts at signed joined reads
    obtain ⟨negative, body⟩ := parts
    simp only [] at signed joined reads
    rw [joined]
    split at reads
    · next word =>
        cases reads
        rw [Bool.or_eq_true, isWord_inf, isWord_infinity] at word
        exact .infinite signed word
    split at reads
    · next word =>
        cases reads
        exact .nan signed (isWord_nan.mp word)
    · obtain ⟨d, found, rfl⟩ := Option.map_eq_some_iff.mp reads
      exact .rational signed (denotesMagnitude_iff.mpr ⟨d, found, rfl⟩)

/-- There has to be a digit on one of the sides of the point. -/
example : read? "+.e1".toList = none := by decide

end Numeral
end Reckoner
