import Mathlib.Algebra.Order.Ring.Int
import Mathlib.Data.Nat.Log

/-!
# Decimal literals and binary64

`Number` is a JSON number as it is written.  Two literals may differ and be the `same`
number; `numeric` is the literal that a decimal column prints for the number of another.

`Float64` is a finite binary64 number.  `Number.float` rounds a literal to the nearest one,
ties to even, and `Float64.print` writes the shortest literal that is rounded back to it.
Both are computed in natural numbers: a positive rational is a numerator over a denominator,
and `nearest` and `Float64.ofRatio` depend on the ratio only.
-/

namespace AgentOS.Kit

open Bool Nat

/-! ## Literals -/

/-- The exponent part of a literal: the text before its digits (`e`, `E`, a sign and leading
zeros) and its value. -/
structure Exponent where
  mark : String
  value : Int
  deriving DecidableEq

/-- A number as it is written: `digits` with the point before the last `scale` of them, then
the exponent. -/
structure Number where
  neg : Bool := false
  digits : Nat
  scale : Nat := 0
  exponent : Option Exponent := none
  deriving DecidableEq

namespace Number

/-- Digits with a point before the last `scale` of them. -/
def pointed (digits scale : Nat) : String :=
  if scale = 0 then digits.repr
  else
    let padded := List.replicate (scale + 1 - digits.repr.length) '0' ++ digits.repr.toList
    String.ofList (padded.take (padded.length - scale) ++ '.' :: padded.drop (padded.length - scale))

/-- The literal. -/
def text (n : Number) : String :=
  (if n.neg then "-" else "") ++ pointed n.digits n.scale ++
    (n.exponent.elim "" fun e => e.mark ++ e.value.natAbs.repr)

/-- The power of ten that `digits` is multiplied with. -/
def power (n : Number) : Int := n.exponent.elim 0 Exponent.value - n.scale

/-- The numerator of the absolute value. -/
def num (n : Number) : Nat := n.digits * 10 ^ n.power.toNat

/-- The denominator of the absolute value. -/
def den (n : Number) : Nat := 10 ^ (-n.power).toNat

/-- The number is negative. -/
def sign (n : Number) : Bool := n.neg && n.digits != 0

/-- Two literals stand for one number. -/
def same (n m : Number) : Bool := n.sign == m.sign && n.num * m.den == m.num * n.den

/-- The literal of a decimal column: no exponent, and no sign on a zero. -/
def numeric (n : Number) : Number where
  neg := n.sign
  digits := n.num
  scale := (-n.power).toNat

/-- A literal that a decimal column keeps as it is. -/
def plain (n : Number) : Bool := n.exponent.isNone && n.neg == n.sign

theorem den_pos (n : Number) : 0 < n.den := Nat.pow_pos (by decide)

theorem same_refl (n : Number) : n.same n = true := by simp [same]

theorem same_comm (n m : Number) : n.same m = m.same n := by
  rw [same, same, BEq.comm, BEq.comm (a := n.num * m.den)]

theorem numeric_of_plain {n : Number} (h : n.plain = true) : n.numeric = n := by
  obtain ⟨hexp, hneg⟩ := and_eq_true_iff.mp h
  have hsign : n.sign = n.neg := (beq_iff_eq.mp hneg).symm
  obtain ⟨neg, digits, scale, exponent⟩ := n
  obtain rfl : exponent = none := Option.isNone_iff_eq_none.mp hexp
  simp [numeric, num, power, hsign]

theorem numeric_power (n : Number) : n.numeric.power = -((-n.power).toNat : Int) := by
  simp [numeric, power]

theorem numeric_num (n : Number) : n.numeric.num = n.num := by
  have hzero : n.numeric.power.toNat = 0 := by
    rw [numeric_power]
    omega
  rw [num, hzero, pow_zero, mul_one]
  rfl

theorem numeric_den (n : Number) : n.numeric.den = n.den := by
  have hpower : (-n.numeric.power).toNat = (-n.power).toNat := by
    rw [numeric_power]
    omega
  simp [den, hpower]

theorem numeric_sign (n : Number) : n.numeric.sign = n.sign := by
  have hdigits : n.numeric.digits = n.num := rfl
  have hneg : n.numeric.neg = n.sign := rfl
  rw [sign, hneg, hdigits]
  cases hsign : n.sign with
  | false => rfl
  | true =>
    have hne : n.digits ≠ 0 := by
      intro h
      simp [sign, h] at hsign
    have hpow : 10 ^ n.power.toNat ≠ 0 := Nat.pow_pos (by decide) |>.ne'
    simpa [num] using mul_ne_zero hne hpow

theorem same_numeric_left (n m : Number) : n.numeric.same m = n.same m := by
  rw [same, numeric_sign, numeric_num, numeric_den, same]

end Number

/-! ## Rounding -/

/-- The natural number nearest to `p / q`, the even one of two. -/
def nearest (p q : Nat) : Nat :=
  if 2 * (p % q) < q then p / q
  else if q < 2 * (p % q) then p / q + 1
  else p / q + p / q % 2

theorem nearest_mul_right (p q : Nat) {c : Nat} (hc : 0 < c) :
    nearest (p * c) (q * c) = nearest p q := by
  have hmod : 2 * (p * c % (q * c)) = 2 * (p % q) * c := by
    rw [mul_mod_mul_right, mul_assoc]
  simp [nearest, hmod, Nat.mul_div_mul_right _ _ hc, Nat.mul_lt_mul_right hc]

/-- A finite binary64 number: `mant * 2 ^ exp`, with the sign of a zero. -/
structure Float64 where
  neg : Bool
  mant : Nat
  exp : Int
  deriving DecidableEq

namespace Float64

/-- The exponent of the binary64 numbers around `p / q`. -/
def binade (p q : Nat) : Int := max (-1074) (((p * 2 ^ 1200 / q).log2 : Int) - 1200 - 52)

/-- The binary64 number nearest to `p / q`, `none` beyond the largest one. -/
def ofRatio (neg : Bool) (p q : Nat) : Option Float64 :=
  let exp := binade p q
  let mant := nearest (p * 2 ^ (-exp).toNat) (q * 2 ^ exp.toNat)
  let rounded : Float64 := if mant = 2 ^ 53 then ⟨neg, 2 ^ 52, exp + 1⟩ else ⟨neg, mant, exp⟩
  if 971 < rounded.exp then none else some rounded

theorem ofRatio_mul_right (neg : Bool) (p q : Nat) {c : Nat} (hc : 0 < c) :
    ofRatio neg (p * c) (q * c) = ofRatio neg p q := by
  have hbinade : binade (p * c) (q * c) = binade p q := by
    rw [binade, mul_right_comm, Nat.mul_div_mul_right _ _ hc, binade]
  have hnearest (a b : Nat) : nearest (p * c * a) (q * c * b) = nearest (p * a) (q * b) := by
    rw [mul_right_comm p, mul_right_comm q, nearest_mul_right _ _ hc]
  simp [ofRatio, hbinade, hnearest]

theorem ofRatio_congr (neg : Bool) {p q p' q' : Nat} (hq : 0 < q) (hq' : 0 < q')
    (h : p * q' = p' * q) : ofRatio neg p q = ofRatio neg p' q' := by
  rw [← ofRatio_mul_right neg p q hq', ← ofRatio_mul_right neg p' q' hq, h, mul_comm q]

/-- The numerator of the absolute value. -/
def num (f : Float64) : Nat := f.mant * 2 ^ f.exp.toNat

/-- The denominator of the absolute value. -/
def den (f : Float64) : Nat := 2 ^ (-f.exp).toNat

/-- The power of ten of the first digit. -/
def decade (f : Float64) : Int := (log 10 (f.num * 10 ^ 400 / f.den) : Int) - 400

/-- The nearest decimal of `n` digits: its digits and its power of ten. -/
def rounded (f : Float64) (n : Nat) : Nat × Int :=
  let power := f.decade + 1 - n
  (nearest (f.num * 10 ^ (-power).toNat) (f.den * 10 ^ power.toNat), power)

/-- A decimal is rounded back to the number. -/
def isRounded (f : Float64) (decimal : Nat × Int) : Bool :=
  ofRatio f.neg (decimal.1 * 10 ^ decimal.2.toNat) (10 ^ (-decimal.2).toNat) == some f

/-- Trailing zeros move to the power of ten.  The digits are at most seventeen. -/
def strip : Nat → Nat × Int → Nat × Int
  | 0, decimal => decimal
  | n + 1, (digits, power) =>
      if digits % 10 = 0 then strip n (digits / 10, power + 1) else (digits, power)

/-- The shortest decimal that is rounded back to the number.  Seventeen digits always are. -/
def shortest (f : Float64) : Nat × Int :=
  strip 17 <| (((List.range 16).map fun n => f.rounded (n + 1)).find? f.isRounded).getD
    (f.rounded 17)

/-- The literal that `encoding/json` writes: with an exponent below `1e-6` and from `1e21`. -/
def print (f : Float64) : Number :=
  if f.mant = 0 then { neg := f.neg, digits := 0 }
  else
    let (digits, power) := f.shortest
    if f.num * 10 ^ 6 < f.den ∨ 10 ^ 21 * f.den ≤ f.num then
      let scale := digits.repr.length - 1
      let value := power + scale
      { neg := f.neg, digits, scale, exponent := some ⟨if value < 0 then "e-" else "e+", value⟩ }
    else { neg := f.neg, digits := digits * 10 ^ power.toNat, scale := (-power).toNat }

end Float64

namespace Number

/-- The binary64 number nearest to a literal, as `strconv.ParseFloat` reads it. -/
def float (n : Number) : Option Float64 := Float64.ofRatio n.neg n.num n.den

/-- The literal is in the range of binary64. -/
def finite (n : Number) : Bool := n.float.isSome

/-- A literal that is decoded into a binary64 number and written again. -/
def reread (n : Number) : Number := (n.float.map Float64.print).getD n

/-- A literal that comes back as it is from a decimal column and a binary64 number. -/
def stable (n : Number) : Bool := n.numeric.reread == n

variable {n : Number}

theorem reread_of_stable (h : n.stable = true) : n.numeric.reread = n := beq_iff_eq.mp h

theorem float_congr {m : Number} (hneg : n.neg = m.neg) (h : n.same m = true) :
    n.float = m.float := by
  have hratio : n.num * m.den = m.num * n.den := by
    simp only [same, and_eq_true, beq_iff_eq] at h
    exact h.2
  rw [float, hneg]
  exact Float64.ofRatio_congr _ n.den_pos m.den_pos hratio

/-- A literal whose number is a binary64 number, and so is stored again as the same number. -/
def exact (n : Number) : Bool := n.numeric.finite && n.numeric.same n.numeric.reread

theorem same_of_exact (h : n.exact = true) :
    n.numeric.same n.numeric.reread = true := (and_eq_true_iff.mp h).2

theorem float_reread (h : n.exact = true) : n.numeric.reread.numeric.float = n.numeric.float := by
  have hsame := same_of_exact h
  have hsign : n.numeric.sign = n.numeric.reread.sign := by
    simp only [same, and_eq_true, beq_iff_eq] at hsame
    exact hsame.1
  refine float_congr ?_ ?_
  · exact hsign.symm.trans (numeric_sign n)
  · rw [same_numeric_left, same_comm]
    exact hsame

theorem reread_exact (h : n.exact = true) : n.numeric.reread.numeric.reread = n.numeric.reread := by
  obtain ⟨f, hf⟩ := Option.isSome_iff_exists.mp (and_eq_true_iff.mp h).1
  have hprint : n.numeric.reread = f.print := by simp [reread, hf]
  have hagain : n.numeric.reread.numeric.float = some f := (float_reread h).trans hf
  rw [reread, hagain, hprint]
  rfl

theorem finite_reread (h : n.exact = true) : n.numeric.reread.numeric.finite = true := by
  rw [finite, float_reread h]
  exact (and_eq_true_iff.mp h).1

example : ({ digits := 9007199254740993 } : Number).reread.text = "9007199254740992" := by
  decide +kernel

example : ({ digits := 1, exponent := some ⟨"e", 23⟩ } : Number).reread.text = "1e+23" := by
  decide +kernel

example : ({ digits := 1, scale := 1 } : Number).reread.text = "0.1" := by
  decide +kernel

end Number

end AgentOS.Kit
