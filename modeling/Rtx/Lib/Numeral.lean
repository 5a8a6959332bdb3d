/-
  File:      Rtx/Lib/Numeral.lean
  Subject:   Positional numerals, the most significant digit first.

  `numeral b n` is `Nat.digits b n` read from its end, with one digit for zero. A program makes it
  from the greatest power of the base downwards (`numeral_eq_digitsFrom`), and reads it in the same
  order (`foldl_numeral`).
-/
import Mathlib.Data.Nat.Digits.Lemmas

namespace Rtx.Lib

/-- The numeral of `n` to the base `b`. -/
def numeral (b n : Nat) : List Nat := if n = 0 then [0] else (Nat.digits b n).reverse

/-- The `k` last digits of `n`, from `b ^ (k - 1)` downwards. -/
def digitsFrom (b : Nat) : Nat → Nat → List Nat
  | 0, _ => []
  | k + 1, n => n / b ^ k :: digitsFrom b k (n % b ^ k)

variable {b k n : Nat}

theorem length_digitsFrom (b k n : Nat) : (digitsFrom b k n).length = k := by
  induction k generalizing n with
  | zero => rfl
  | succ k ih => exact congrArg Nat.succ (ih _)

/-- The last digit, taken off. -/
theorem digitsFrom_succ (hb : 0 < b) (h : n < b ^ (k + 1)) :
    digitsFrom b (k + 1) n = digitsFrom b k (n / b) ++ [n % b] := by
  induction k generalizing n with
  | zero =>
      rw [zero_add, pow_one] at h
      simp [digitsFrom, Nat.mod_eq_of_lt h]
  | succ k ih =>
      have h1 : n / b ^ (k + 1) = n / b / b ^ k := by rw [Nat.div_div_eq_div_mul, pow_succ']
      have h2 : n % b ^ (k + 1) / b = n / b % b ^ k := by
        rw [pow_succ', Nat.mod_mul_right_div_self]
      have h3 : n % b ^ (k + 1) % b = n % b := by
        rw [pow_succ']
        exact Nat.mod_mul_right_mod n b (b ^ k)
      have h4 : digitsFrom b (k + 2) n = n / b ^ (k + 1) :: digitsFrom b (k + 1) (n % b ^ (k + 1)) :=
        rfl
      rw [h4, ih (Nat.mod_lt n (Nat.pow_pos hb)), h1, h2, h3]
      rfl

theorem numeral_of_lt (h : n < b) : numeral b n = [n] := by
  unfold numeral
  split
  next h0 => rw [h0]
  next h0 => rw [Nat.digits_of_lt b n h0 h, List.reverse_singleton]

theorem numeral_step (hb : 1 < b) (h : b ≤ n) : numeral b n = numeral b (n / b) ++ [n % b] := by
  have h0 : n ≠ 0 := by omega
  have h1 : n / b ≠ 0 := (Nat.div_pos h (by omega)).ne'
  unfold numeral
  rw [if_neg h0, if_neg h1, Nat.digits_def' hb (Nat.pos_of_ne_zero h0), List.reverse_cons]

/-- **A numeral, digit by digit from the greatest power.** -/
theorem numeral_eq_digitsFrom (hb : 1 < b) (hlow : k ≠ 0 → b ^ k ≤ n) (hhigh : n < b ^ (k + 1)) :
    numeral b n = digitsFrom b (k + 1) n := by
  induction k generalizing n with
  | zero =>
      rw [zero_add, pow_one] at hhigh
      rw [numeral_of_lt hhigh]
      simp [digitsFrom]
  | succ k ih =>
      have h := hlow k.succ_ne_zero
      have hbn : b ≤ n := (Nat.le_self_pow k.succ_ne_zero b).trans h
      have h1 : b ^ k ≤ n / b := (Nat.le_div_iff_mul_le (by omega)).mpr (by rwa [← pow_succ])
      have h2 : n / b < b ^ (k + 1) := Nat.div_lt_of_lt_mul (by rwa [← pow_succ'])
      rw [numeral_step hb hbn, digitsFrom_succ (by omega) hhigh, ih (fun _ => h1) h2]

/-- Every numeral has a greatest power. -/
theorem exists_pow (hb : 1 < b) (n : Nat) : ∃ k, (k ≠ 0 → b ^ k ≤ n) ∧ n < b ^ (k + 1) := by
  by_cases h0 : n = 0
  · exact ⟨0, fun h => absurd rfl h, by rw [h0]; exact Nat.pow_pos (by omega)⟩
  · exact ⟨Nat.log b n, fun _ => Nat.pow_log_le_self b h0, Nat.lt_pow_succ_log_self hb n⟩

theorem numeral_ne_nil (hb : 1 < b) (n : Nat) : numeral b n ≠ [] := by
  obtain ⟨k, h1, h2⟩ := exists_pow hb n
  rw [numeral_eq_digitsFrom hb h1 h2]
  exact List.cons_ne_nil _ _

theorem lt_of_mem_numeral (hb : 1 < b) {d : Nat} (h : d ∈ numeral b n) : d < b := by
  unfold numeral at h
  split at h
  · rw [List.mem_singleton] at h
    omega
  · exact Nat.digits_lt_base hb (List.mem_reverse.mp h)

/-- How long a numeral is. -/
theorem length_numeral_le (hb : 1 < b) (hk : k ≠ 0) (h : n < b ^ k) : (numeral b n).length ≤ k := by
  unfold numeral
  split
  · exact Nat.one_le_iff_ne_zero.mpr hk
  · rw [List.length_reverse]
    exact (Nat.digits_length_le_iff hb n).mpr h

/-- **A numeral is read from the left.** -/
theorem foldl_numeral (b n : Nat) : (numeral b n).foldl (fun a d => a * b + d) 0 = n := by
  unfold numeral
  split
  next h => simp [h]
  next =>
    rw [List.foldl_reverse]
    have h := Nat.ofDigits_digits b n
    rw [Nat.ofDigits_eq_foldr] at h
    have hf : (fun x y : Nat => y * b + x) = fun x y : Nat => (x : Nat) + b * y := by
      funext x y
      rw [Nat.mul_comm, Nat.add_comm]
    rw [hf]
    exact h

/-- The first digit is 0 for zero alone. -/
theorem head_numeral_pos (b : Nat) (h0 : n ≠ 0) : ∀ d ∈ (numeral b n).head?, d ≠ 0 := by
  intro d hd
  unfold numeral at hd
  rw [if_neg h0, List.head?_reverse] at hd
  have hne : Nat.digits b n ≠ [] := Nat.digits_ne_nil_iff_ne_zero.mpr h0
  rw [List.getLast?_eq_some_getLast hne] at hd
  obtain rfl := Option.some.inj hd
  exact Nat.getLast_digit_ne_zero b h0

end Rtx.Lib
