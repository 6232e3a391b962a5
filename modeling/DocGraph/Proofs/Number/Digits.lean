import DocGraph.Number.Digits
import DocGraph.Text.Quoted

/-! Digits and the numbers they spell.

    The decimal digits of a number spell it (`ofDigits_decimal`), begin with a zero only for zero
    itself, and are no more than the number's size allows; hexadecimal digits of a fixed width spell
    every number that fits (`ofDigits_hexDigits`). -/

namespace DocGraph.Number

theorem digitValue?_digitChar : ∀ d < 10, digitValue? (digitChar d) = some d := by decide

theorem isDigit_digitChar : ∀ d < 10, isDigit (digitChar d) = true := by decide

theorem le_toNat_digitChar : ∀ d < 10, 32 ≤ (digitChar d).toNat := by decide

theorem digitChar_ne_zero : ∀ d < 10, d ≠ 0 → digitChar d ≠ '0' := by decide

/-- A digit at the end multiplies what stands before it by the base. -/
theorem ofDigits_concat {base d : Nat} {c : Char} (h : digitValue? c = some d) (cs : List Char) :
    ofDigits base (cs ++ [c]) = ofDigits base cs * base + d := by
  simp only [ofDigits, List.foldl_append, List.foldl_cons, List.foldl_nil, h]

/-! ### Decimal digits -/

theorem decimalOnto_eq (n : Nat) (tail : List Char) : decimalOnto n tail = decimal n ++ tail := by
  induction n using Nat.strongRecOn generalizing tail with
  | _ n ih =>
    by_cases hn : n < 10
    · rw [decimal, decimalOnto, decimalOnto.eq_1 n [], if_pos hn, if_pos hn]
      rfl
    · have hless : n / 10 < n := by omega
      rw [decimal, decimalOnto, decimalOnto.eq_1 n [], if_neg hn, if_neg hn, ih _ hless, ih _ hless]
      simp

theorem decimal_of_lt {n : Nat} (h : n < 10) : decimal n = [digitChar n] := by
  rw [decimal, decimalOnto, if_pos h]

theorem decimal_of_le {n : Nat} (h : 10 ≤ n) :
    decimal n = decimal (n / 10) ++ [digitChar (n % 10)] := by
  rw [decimal, decimalOnto, if_neg (by omega), decimalOnto_eq]

/-- Digits go on from the digits of a tenth. -/
theorem decimal_induction {P : Nat → Prop} (hdigit : ∀ n < 10, P n)
    (hmore : ∀ n, 10 ≤ n → P (n / 10) → P n) (n : Nat) : P n := by
  induction n using Nat.strongRecOn with
  | _ n ih =>
    by_cases hn : n < 10
    · exact hdigit n hn
    · exact hmore n (by omega) (ih _ (by omega))

theorem ofDigits_decimal (n : Nat) : ofDigits 10 (decimal n) = n := by
  induction n using decimal_induction with
  | hdigit n hn =>
    rw [decimal_of_lt hn, ← List.nil_append [digitChar n],
      ofDigits_concat (digitValue?_digitChar n hn)]
    simp [ofDigits]
  | hmore n hn ih =>
    rw [decimal_of_le hn, ofDigits_concat (digitValue?_digitChar _ (by omega)), ih]
    omega

theorem exists_of_mem_decimal {n : Nat} {c : Char} (h : c ∈ decimal n) :
    ∃ d < 10, c = digitChar d := by
  induction n using decimal_induction with
  | hdigit n hn =>
    rw [decimal_of_lt hn, List.mem_singleton] at h
    exact ⟨n, hn, h⟩
  | hmore n hn ih =>
    rw [decimal_of_le hn, List.mem_append, List.mem_singleton] at h
    rcases h with hmem | rfl
    · exact ih hmem
    · exact ⟨n % 10, by omega, rfl⟩

theorem isDigit_of_mem_decimal {n : Nat} {c : Char} (h : c ∈ decimal n) : isDigit c = true := by
  obtain ⟨d, hd, rfl⟩ := exists_of_mem_decimal h
  exact isDigit_digitChar d hd

/-- Only the digits of zero begin with a zero. -/
theorem exists_decimal_eq_cons {n : Nat} (h : n ≠ 0) :
    ∃ c cs, decimal n = c :: cs ∧ c ≠ '0' := by
  induction n using decimal_induction with
  | hdigit n hn => exact ⟨_, [], decimal_of_lt hn, digitChar_ne_zero n hn h⟩
  | hmore n hn ih =>
    obtain ⟨c, cs, htenth, hc⟩ := ih (by omega)
    exact ⟨c, cs ++ [digitChar (n % 10)], by rw [decimal_of_le hn, htenth]; rfl, hc⟩

theorem decimal_zero : decimal 0 = ['0'] := decimal_of_lt (by decide)

theorem decimal_ne_nil (n : Nat) : decimal n ≠ [] := by
  by_cases hn : n = 0
  · rw [hn, decimal_zero]
    exact List.cons_ne_nil _ _
  · obtain ⟨c, cs, hdigits, -⟩ := exists_decimal_eq_cons hn
    rw [hdigits]
    exact List.cons_ne_nil _ _

/-- A number below a power of ten has no more digits than its exponent says. -/
theorem length_decimal_le {limit n : Nat} (hlimit : 0 < limit) (h : n < Nat.pow 10 limit) :
    (decimal n).length ≤ limit := by
  induction limit generalizing n with
  | zero => cases hlimit
  | succ k ih =>
    by_cases hn : n < 10
    · rw [decimal_of_lt hn, List.length_singleton]
      exact hlimit
    · have hpow : n < 10 * Nat.pow 10 k := by rw [Nat.mul_comm]; exact h
      have hk : 0 < k := Nat.pos_of_ne_zero fun hzero => by simp [hzero] at hpow; omega
      have htenth := ih hk (Nat.div_lt_of_lt_mul hpow)
      rw [decimal_of_le (by omega), List.length_append, List.length_singleton]
      omega

theorem length_decimal_le_digitLimit {n : Int} (h : isTooLong n = false) :
    (decimal n.natAbs).length ≤ digitLimit := by
  rw [isTooLong, decide_eq_false_iff_not, Nat.not_le] at h
  exact length_decimal_le (by decide) h

/-! ### Hexadecimal digits -/

open Text (hexDigit hexDigits)

theorem digitValue?_hexDigit : ∀ d < 16, digitValue? (hexDigit d) = some d := by decide

theorem length_hexDigits (width n : Nat) : (hexDigits width n).length = width := by
  induction width generalizing n with
  | zero => rfl
  | succ width ih => rw [hexDigits, List.length_append, ih, List.length_singleton]

theorem exists_of_mem_hexDigits {width n : Nat} {c : Char} (h : c ∈ hexDigits width n) :
    ∃ d < 16, c = hexDigit d := by
  induction width generalizing n with
  | zero => cases h
  | succ width ih =>
    rw [hexDigits, List.mem_append, List.mem_singleton] at h
    rcases h with hmem | rfl
    · exact ih hmem
    · exact ⟨n % 16, by omega, rfl⟩

theorem isDigitOf_of_mem_hexDigits {width n : Nat} {c : Char} (h : c ∈ hexDigits width n) :
    isDigitOf 16 c = true := by
  obtain ⟨d, hd, rfl⟩ := exists_of_mem_hexDigits h
  rw [isDigitOf, digitValue?_hexDigit d hd]
  exact decide_eq_true hd

theorem ofDigits_hexDigits {width n : Nat} (h : n < Nat.pow 16 width) :
    ofDigits 16 (hexDigits width n) = n := by
  induction width generalizing n with
  | zero =>
    have hn : n = 0 := by simpa using h
    rw [hn]
    rfl
  | succ width ih =>
    have hpow : n < 16 * Nat.pow 16 width := by rw [Nat.mul_comm]; exact h
    rw [hexDigits, ofDigits_concat (digitValue?_hexDigit _ (by omega)),
      ih (Nat.div_lt_of_lt_mul hpow)]
    omega

end DocGraph.Number
