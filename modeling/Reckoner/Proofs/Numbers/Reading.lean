import Reckoner.Proofs.Numbers.Denotation
import Reckoner.Proofs.Numbers.Rounding
import Reckoner.Proofs.Parsing.Steps

/-! Reading numbers. Every text of the grammar is read as the number nearest to what it denotes,
however many digits it has and however large its power of ten is, and no other text is read.
-/

namespace Reckoner

-----------------------------------------------------------------------------------------
-- Powers of ten and of two
-----------------------------------------------------------------------------------------

/-- Powers of ten as rational numbers. -/
@[simp]
theorem cast_tenTo (exponent : ℕ)
    : ((tenTo exponent : ℕ) : ℚ) = 10 ^ exponent :=
  Nat.cast_pow 10 exponent

namespace Decimal

theorem overflowBound_le_ten_pow
    : Binary64.overflowBound ≤ 10 ^ 309 := by
  have below : twoTo 1024 ≤ tenTo 309 := by decide +kernel
  rw [← @Nat.cast_le ℚ, cast_twoTo, cast_tenTo] at below
  exact (sub_le_self _ (by positivity)).trans below

theorem ten_pow_le_underflowBound
    : (10 : ℚ) ^ (-324 : ℤ) ≤ Binary64.underflowBound := by
  have below : twoTo 1075 ≤ tenTo 324 := by decide +kernel
  rw [← @Nat.cast_le ℚ, cast_twoTo, cast_tenTo] at below
  rw [zpow_neg, zpow_ofNat, Binary64.underflowBound, one_div]
  exact inv_anti₀ (by positivity) below

/-- A decimal lies below ten to the power of its order: three binary digits are no more than one
decimal digit.
-/
theorem toRat_lt_ten_pow_order (d : Decimal)
    : d.toRat < 10 ^ d.order := by
  have three : d.coefficient.log2 + 1 ≤ 3 * (d.coefficient.log2 / 3 + 1) := by omega
  have below : (d.coefficient : ℚ) < 10 ^ (d.coefficient.log2 / 3 + 1) :=
    calc (d.coefficient : ℚ)
        < 2 ^ (d.coefficient.log2 + 1) := by
          exact_mod_cast lt_twoTo_log2_succ d.coefficient
      _ ≤ 2 ^ (3 * (d.coefficient.log2 / 3 + 1)) := pow_le_pow_right₀ one_le_two three
      _ = 8 ^ (d.coefficient.log2 / 3 + 1) := by
          rw [pow_mul]
          norm_num
      _ ≤ 10 ^ (d.coefficient.log2 / 3 + 1) := pow_le_pow_left₀ (by norm_num) (by norm_num) _
  rw [order, zpow_add₀ (by norm_num), zpow_natCast]
  exact mul_lt_mul_of_pos_right below (zpow_pos (by norm_num) _)

-----------------------------------------------------------------------------------------
-- Rounding decimals
-----------------------------------------------------------------------------------------

theorem toRat_nonneg (d : Decimal)
    : 0 ≤ d.toRat :=
  mul_nonneg (Nat.cast_nonneg _) (zpow_nonneg (by norm_num) _)

/-- A decimal as a quotient of natural numbers, one of which is a power of ten. -/
theorem toRat_eq_div (d : Decimal)
    : d.toRat = (d.coefficient * tenTo d.exponent.toNat : ℕ) / (tenTo (-d.exponent).toNat : ℕ)
    := by
  rw [toRat, Nat.cast_mul, cast_tenTo, cast_tenTo]
  obtain ⟨n, same | same⟩ := d.exponent.eq_nat_or_neg
  · rw [same, Int.toNat_natCast, Int.toNat_neg_natCast, zpow_natCast, pow_zero, div_one]
  · rw [same, neg_neg, Int.toNat_natCast, Int.toNat_neg_natCast, zpow_neg, zpow_natCast,
      pow_zero, mul_one, div_eq_mul_inv]

/-- The number nearest to a decimal is what the decimal is rounded to. The powers of ten that are
not written out are beyond the bounds, where rounding gives an infinity or a zero.
-/
theorem rounds_nearest (negative : Bool) (d : Decimal)
    : Binary64.Rounds negative (Binary64.withSign negative d.toRat) (d.nearest negative) := by
  have exact := Binary64.rounds_nearest negative
    (d.coefficient * tenTo d.exponent.toNat * unitsInOne)
    (tenTo_pos (-d.exponent).toNat)
  rw [Nat.cast_mul, div_right_comm, mul_div_cancel_right₀ _ Binary64.unitsInOne_pos.ne',
    ← toRat_eq_div] at exact
  have size := Binary64.abs_withSign negative d.toRat_nonneg
  rw [nearest]
  split
  · next zero =>
      have small : d.toRat ≤ Binary64.underflowBound := by
        rw [toRat, zero, Nat.cast_zero, zero_mul]
        exact Binary64.underflowBound_pos.le
      rwa [← exact.eq_signedZero (size.trans_le small)]
  next nonzero =>
  split
  · next large =>
      have beyond : Binary64.overflowBound ≤ d.toRat := by
        have one : (1 : ℚ) ≤ d.coefficient :=
          Nat.one_le_cast.mpr (Nat.one_le_iff_ne_zero.mpr nonzero)
        have ten : (10 : ℚ) ^ 309 ≤ 10 ^ d.exponent := by
          rw [← zpow_natCast]
          exact zpow_le_zpow_right₀ (by norm_num) large
        exact (overflowBound_le_ten_pow.trans ten).trans
          (le_mul_of_one_le_left (zpow_nonneg (by norm_num) _) one)
      rwa [← exact.infinite_iff.mpr (beyond.trans_eq size.symm)]
  split
  · next small =>
      have ten : (10 : ℚ) ^ d.order ≤ 10 ^ (-324 : ℤ) :=
        zpow_le_zpow_right₀ (by norm_num) small
      have below := (d.toRat_lt_ten_pow_order.le.trans ten).trans ten_pow_le_underflowBound
      rwa [← exact.eq_signedZero (size.trans_le below)]
  · exact exact

end Decimal

-----------------------------------------------------------------------------------------
-- Texts
-----------------------------------------------------------------------------------------

namespace Numeral

/-- Only one thing is denoted by a text. -/
theorem Denotes.unique {text : List Char} {meaning meaning' : Meaning}
    (denotes : Denotes text meaning) (denotes' : Denotes text meaning')
    : meaning = meaning' := by
  obtain ⟨numeral, reads, rfl⟩ := denotes_iff.mp denotes
  obtain ⟨numeral', reads', rfl⟩ := denotes_iff.mp denotes'
  rw [Option.some.inj (reads.symm.trans reads')]

/-- A number is what a text is read as: the infinity or the value that the word stands for, or
what the rational number is rounded to, with the sign that is written.
-/
def Meaning.IsReadAs : Meaning → Binary64 → Prop
  | rational negative magnitude, number =>
      Binary64.Rounds negative (Binary64.withSign negative magnitude) number
  | infinite negative, number => number = .infinite negative
  | nan, number => number = .nan

theorem isReadAs_toBinary64 (numeral : Numeral)
    : numeral.meaning.IsReadAs numeral.toBinary64 := by
  cases numeral with
  | decimal negative magnitude => exact magnitude.rounds_nearest negative
  | infinite | nan => rfl

/-- What a text denotes is read as one number only. -/
theorem Meaning.IsReadAs.unique {meaning : Meaning} {number other : Binary64}
    (reads : meaning.IsReadAs number) (reads' : meaning.IsReadAs other)
    : number = other := by
  cases meaning with
  | rational => exact Binary64.Rounds.unique reads reads'
  | infinite | nan => exact Eq.trans reads (Eq.symm reads')

end Numeral

namespace Binary64

theorem ofText?_of_denotes {text : String} {meaning : Numeral.Meaning}
    (denotes : Numeral.Denotes text.toList meaning)
    : ∃ value, ofText? text = some value ∧ meaning.IsReadAs value := by
  obtain ⟨numeral, reads, rfl⟩ := Numeral.denotes_iff.mp denotes
  exact ⟨_, congrArg _ reads, numeral.isReadAs_toBinary64⟩

/-- A text that is not in the grammar is not read. -/
theorem ofText?_eq_none_iff {text : String}
    : ofText? text = none ↔ ¬ ∃ meaning, Numeral.Denotes text.toList meaning := by
  constructor
  · rintro unread ⟨meaning, denotes⟩
    obtain ⟨value, found, -⟩ := ofText?_of_denotes denotes
    cases unread.symm.trans found
  · intro outside
    rw [ofText?, Option.map_eq_none_iff]
    by_contra read
    obtain ⟨numeral, reads⟩ := Option.ne_none_iff_exists'.mp read
    exact outside ⟨_, Numeral.denotes_iff.mpr ⟨numeral, reads, rfl⟩⟩

/-- Texts that denote the same are read as the same number. -/
theorem ofText?_congr {text other : String} {meaning : Numeral.Meaning}
    (denotes : Numeral.Denotes text.toList meaning)
    (denotes' : Numeral.Denotes other.toList meaning)
    : ofText? text = ofText? other := by
  obtain ⟨value, reads, isReadAs⟩ := ofText?_of_denotes denotes
  obtain ⟨value', reads', isReadAs'⟩ := ofText?_of_denotes denotes'
  rw [reads, reads', isReadAs.unique isReadAs']

/-- Halfway between two numbers, the one with the even significand is read. -/
example : ofText? "9007199254740993" = ofText? "9007199254740992.0" := by decide +kernel

end Binary64

-----------------------------------------------------------------------------------------
-- Tokens
-----------------------------------------------------------------------------------------

namespace Parser

/-- The outcome of reading an operand where a number stands: its value, or the error that names
its text and its line, and the cursor behind the token in either case.
-/
theorem run_primary_number (text : String) (line position depth : Nat) (rest : List Token)
    : primary.run
        { rest := { kind := .number, text := text, line := line } :: rest
          position := position, depth := depth }
      = match Binary64.ofText? text with
        | some value =>
            .ok (.number value line) { rest := rest, position := position + 1, depth := depth }
        | none =>
            .error (.invalidNumber text line)
              { rest := rest, position := position + 1, depth := depth } :=
  run_primaryWith _ _

open Numeral Binary64 in
/-- A number token is read exactly: as the number nearest to what its text denotes, or not at all
if the text is not in the grammar. Zeros in front of the digits change nothing, and what denotes
more is read as no less.
-/
theorem primary_reads_numbers (text : String) (line position depth : Nat) (rest : List Token)
    : let before (text : String) : Cursor :=
        { rest := { kind := .number, text := text, line := line } :: rest
          position := position, depth := depth }
      let behind : Cursor := { rest := rest, position := position + 1, depth := depth }
      ((∃ e after, primary.run (before text) = .ok e after)
        ↔ ∃ meaning, Denotes text.toList meaning)
      ∧ ((¬ ∃ meaning, Denotes text.toList meaning) →
        primary.run (before text) = .error (.invalidNumber text line) behind)
      ∧ (∀ meaning, Denotes text.toList meaning →
        ∃ value, primary.run (before text) = .ok (.number value line) behind
          ∧ meaning.IsReadAs value)
      ∧ (∀ sign body negative magnitude zeros,
        DenotesSign sign negative → DenotesMagnitude body magnitude →
        text.toList = sign ++ body →
          primary.run (before (String.ofList (sign ++ (List.replicate zeros '0' ++ body))))
            = primary.run (before text))
      ∧ ∀ other negative magnitude negative' magnitude',
        Denotes text.toList (.rational negative magnitude) →
        Denotes other.toList (.rational negative' magnitude') →
        withSign negative magnitude ≤ withSign negative' magnitude' →
          ∃ value value', primary.run (before text) = .ok (.number value line) behind
            ∧ primary.run (before other) = .ok (.number value' line) behind
            ∧ AtMost value value' := by
  intro before behind
  have reads {text : String} {value : Binary64} (found : ofText? text = some value)
      : primary.run (before text) = .ok (.number value line) behind := by
    rw [run_primary_number, found]
  have refuses {text : String} (outside : ¬ ∃ meaning, Denotes text.toList meaning)
      : primary.run (before text) = .error (.invalidNumber text line) behind := by
    rw [run_primary_number, ofText?_eq_none_iff.mpr outside]
  refine ⟨⟨?_, ?_⟩, refuses, ?_, ?_, ?_⟩
  · rintro ⟨e, after, run⟩
    by_contra outside
    cases (refuses outside).symm.trans run
  · rintro ⟨meaning, denotes⟩
    obtain ⟨value, found, -⟩ := ofText?_of_denotes denotes
    exact ⟨_, _, reads found⟩
  · intro meaning denotes
    obtain ⟨value, found, isReadAs⟩ := ofText?_of_denotes denotes
    exact ⟨value, reads found, isReadAs⟩
  · intro sign body negative magnitude zeros signed denotes same
    have short : Denotes text.toList (.rational negative magnitude) := by
      rw [same]
      exact .rational signed denotes
    have long : Denotes (String.ofList (sign ++ (List.replicate zeros '0' ++ body))).toList
        (.rational negative magnitude) := by
      rw [String.toList_ofList]
      exact .rational signed (denotes.zeros_append zeros)
    obtain ⟨value, found, -⟩ := ofText?_of_denotes short
    rw [reads found, reads ((ofText?_congr long short).trans found)]
  · intro other negative magnitude negative' magnitude' denotes denotes' ordered
    obtain ⟨value, found, rounds⟩ := ofText?_of_denotes denotes
    obtain ⟨value', found', rounds'⟩ := ofText?_of_denotes denotes'
    exact ⟨value, value', reads found, reads found', rounds.atMost rounds' ordered⟩

open Numeral Binary64 in
/-- Minus a half, which zeros in front do not change, and which is less than a billion. -/
theorem primary_reads_numbers_minus_half
    : ∃ value value',
        primary.run (.start [{ kind := .number, text := "-.5", line := 3 }])
          = .ok (.number value 3) { rest := [], position := 1, depth := 0 }
        ∧ Rounds true (withSign true (5 / 10)) value
        ∧ primary.run (.start [{ kind := .number, text := "-00.5", line := 3 }])
          = .ok (.number value 3) { rest := [], position := 1, depth := 0 }
        ∧ primary.run (.start [{ kind := .number, text := "1e9", line := 3 }])
          = .ok (.number value' 3) { rest := [], position := 1, depth := 0 }
        ∧ AtMost value value' := by
  obtain ⟨-, -, reads, zeros, monotone⟩ := primary_reads_numbers "-.5" 3 0 0 []
  have half : DenotesMagnitude ['.', '5'] (5 / 10) := by
    have pointed := @DenotesMagnitude.pointed [] ['5'] [] 0 (List.cons_ne_nil _ _)
      (List.all_eq_true.mp rfl) .absent
    simpa [natural, Nat.ofDigitChars_cons] using pointed
  have billion : DenotesMagnitude ['1', 'e', '9'] (10 ^ 9) := by
    have nine := @DenotesPower.written 'e' [] ['9'] false (.inl rfl) .absent
      (List.cons_ne_nil _ _) (List.all_eq_true.mp rfl)
    have whole := @DenotesMagnitude.whole ['1'] _ _ (List.cons_ne_nil _ _)
      (List.all_eq_true.mp rfl) nine
    simpa [natural, Nat.ofDigitChars_cons] using whole
  have denotes : Denotes "-.5".toList (.rational true (5 / 10)) := .rational .minus half
  have denotes' : Denotes "1e9".toList (.rational false (10 ^ 9)) := .rational .absent billion
  obtain ⟨value, run, rounds⟩ := reads _ denotes
  obtain ⟨_, value', run', more, atMost⟩ := monotone "1e9" _ _ _ _ denotes denotes'
    (by norm_num [withSign])
  cases run.symm.trans run'
  exact ⟨value, value', run, rounds, (zeros ['-'] _ true _ 2 .minus half rfl).trans run, more,
    atMost⟩

end Parser
end Reckoner
