import Mathlib.Data.Rat.Floor
import Mathlib.Algebra.Order.Floor
import Mathlib.Algebra.Ring.Int.Parity

/-!
# `Compat_roundevenf` and `Compat_roundeven`

Reference: `src/util/Compat.c.in:388-429`.

Both functions round `fabs(x)` with the C library's `round` (halfway cases away from zero), step
down by one when the input was halfway and `round` landed on an odd number, and put the sign of
`x` back with `copysign`. The float and the double version differ only in the `<math.h>`
functions and literals they use, so both are `roundevenWith` applied to their own operations
(`MathOps`) and constants.

Numbers are exact rationals here: `fabs`, `round`, `fmod` and `copysign` are their exact
mathematical definitions, and the signed zero is not modelled. On that model both functions are
`roundHalfEven` (`compatRoundeven_eq_roundHalfEven`), the rounding to the nearest integer with
halfway cases to the even neighbour, which `isNearestEven_roundHalfEven` and
`IsNearestEven.unique` characterise.
-/

namespace CvCuda.Compat

/-! ## The `<math.h>` operations -/

/-- C's `round`: the nearest integer, halfway cases away from zero. -/
def cRound (x : ℚ) : ℚ := if 0 ≤ x then ⌊x + 1 / 2⌋ else -⌊-x + 1 / 2⌋

/-- C's `fmod(x, y)`: `x - n*y` with `n` the quotient `x/y` truncated toward zero. -/
def cFmod (x y : ℚ) : ℚ := x - y * (if 0 ≤ x / y then ⌊x / y⌋ else ⌈x / y⌉)

/-- C's `copysign(x, y)`: the magnitude of `x` with the sign of `y`. -/
def cCopysign (x y : ℚ) : ℚ := if y < 0 then -|x| else |x|

/-- The `<math.h>` functions `Compat_roundeven*` calls, for one floating type. -/
structure MathOps where
  fabs : ℚ → ℚ
  round : ℚ → ℚ
  fmod : ℚ → ℚ → ℚ
  copysign : ℚ → ℚ → ℚ

/-- `fabsf`, `roundf`, `fmodf` and `copysignf` on exact numbers. -/
def floatOps : MathOps := ⟨abs, cRound, cFmod, cCopysign⟩

/-- `fabs`, `round`, `fmod` and `copysign` on exact numbers. -/
def doubleOps : MathOps := ⟨abs, cRound, cFmod, cCopysign⟩

/-! ## The functions -/

/-- The magnitude `Compat_roundeven*` computes from `px = fabs(x)`: `round(px)`, less `one` when
`px` was `half` away from it and it is odd. -/
def roundedMagnitude (m : MathOps) (half one two px : ℚ) : ℚ :=
  let rounded := m.round px
  if m.fabs (px - rounded) = half then
    if m.fmod rounded two ≠ 0 then rounded - one else rounded
  else rounded

/-- The body shared by `Compat_roundevenf` and `Compat_roundeven`. -/
def roundevenWith (m : MathOps) (half one two x : ℚ) : ℚ :=
  m.copysign (roundedMagnitude m half one two (m.fabs x)) x

/-- `Compat_roundevenf` (`Compat.c.in:388-400`), with its literals `0.5f`, `1.0f`, `2.0f`. -/
def compatRoundevenf (x : ℚ) : ℚ := roundevenWith floatOps (1 / 2) 1 2 x

/-- `Compat_roundeven` (`Compat.c.in:413-423`), with its literals `0.5`, `1.0`, `2.0`. -/
def compatRoundeven (x : ℚ) : ℚ := roundevenWith doubleOps (1 / 2) 1 2 x

/-! ## Rounding half to even -/

/-- Rounding to the nearest integer, halfway cases to the even neighbour. -/
def roundHalfEven (x : ℚ) : ℤ :=
  if x - ⌊x⌋ < 1 / 2 then ⌊x⌋
  else if 1 / 2 < x - ⌊x⌋ then ⌊x⌋ + 1
  else if Even ⌊x⌋ then ⌊x⌋ else ⌊x⌋ + 1

/-- `n` is an integer nearest to `x`, the even one when `x` is halfway between two. -/
def IsNearestEven (x : ℚ) (n : ℤ) : Prop :=
  |x - n| < 1 / 2 ∨ |x - n| = 1 / 2 ∧ Even n

theorem isNearestEven_roundHalfEven (x : ℚ) : IsNearestEven x (roundHalfEven x) := by
  have h0 := Int.floor_le x
  have h1 := Int.lt_floor_add_one x
  unfold IsNearestEven roundHalfEven
  split_ifs with ha hb hc
  · left; rw [abs_lt]; constructor <;> linarith
  · left; push_cast; rw [abs_lt]; constructor <;> linarith
  · right; exact ⟨by rw [abs_of_nonneg] <;> linarith, hc⟩
  · right
    refine ⟨?_, by rw [Int.not_even_iff_odd] at hc; exact hc.add_one⟩
    push_cast
    rw [abs_of_nonpos] <;> linarith

/-- At most one integer is nearest to `x` with the halfway case to even. -/
theorem IsNearestEven.unique {x : ℚ} {m n : ℤ} (hm : IsNearestEven x m) (hn : IsNearestEven x n) :
    m = n := by
  have hle : ∀ {k : ℤ}, IsNearestEven x k → |x - k| ≤ 1 / 2 := fun h =>
    h.elim le_of_lt (fun h => h.1.le)
  have hgap : |((m : ℚ) - n)| ≤ |x - m| + |x - n| := by
    calc |((m : ℚ) - n)| = |(x - n) - (x - m)| := by ring_nf
      _ ≤ |x - n| + |x - m| := abs_sub _ _
      _ = |x - m| + |x - n| := add_comm _ _
  have hint : |m - n| ≤ 1 := by
    have : |((m : ℚ) - n)| ≤ 1 := by linarith [hle hm, hle hn]
    exact_mod_cast this
  obtain ⟨hlo, hhi⟩ := abs_le.mp hint
  by_contra hne
  have hone : |((m : ℚ) - n)| = 1 := by
    have : |m - n| = 1 := by rw [abs_eq zero_le_one]; omega
    exact_mod_cast this
  rcases hm with hm | ⟨hm, hme⟩ <;> rcases hn with hn | ⟨hn, hne'⟩
  · linarith
  · linarith
  · linarith
  · rw [Int.even_iff] at hme hne'; omega

/-- `roundHalfEven` commutes with negation. -/
theorem roundHalfEven_neg (x : ℚ) : roundHalfEven (-x) = -roundHalfEven x := by
  refine IsNearestEven.unique (isNearestEven_roundHalfEven (-x)) ?_
  rcases isNearestEven_roundHalfEven x with h | ⟨h, he⟩
  · left; push_cast; rwa [neg_sub_neg, abs_sub_comm]
  · right; push_cast; exact ⟨by rwa [neg_sub_neg, abs_sub_comm], he.neg⟩

/-! ## The C code rounds half to even -/

theorem cRound_of_nonneg {y : ℚ} (hy : 0 ≤ y) : cRound y = ⌊y + 1 / 2⌋ := by
  simp [cRound, hy]

/-- On a non-negative integer, `fmod(n, 2)` is `n % 2`. -/
theorem cFmod_two_of_nonneg {n : ℤ} (hn : 0 ≤ n) : cFmod n 2 = ((n % 2 : ℤ) : ℚ) := by
  have hq : (0 : ℚ) ≤ (n : ℚ) / 2 := by positivity
  have hfl : ⌊(n : ℚ) / 2⌋ = n / 2 := by exact_mod_cast Rat.floor_intCast_div_natCast n 2
  rw [cFmod, if_pos hq, hfl, Int.emod_def]
  push_cast; ring

/-- On a non-negative `px`, the magnitude step of `Compat_roundeven*` is `roundHalfEven`. -/
theorem roundedMagnitude_of_nonneg {y : ℚ} (hy : 0 ≤ y) :
    roundedMagnitude floatOps (1 / 2) 1 2 y = roundHalfEven y := by
  have h0 := Int.floor_le y
  have h1 := Int.lt_floor_add_one y
  have hf : 0 ≤ ⌊y⌋ := Int.floor_nonneg.mpr hy
  simp only [roundedMagnitude, floatOps, cRound_of_nonneg hy, roundHalfEven]
  rcases lt_trichotomy (y - ⌊y⌋) (1 / 2) with ht | ht | ht
  · have hR : ⌊y + 1 / 2⌋ = ⌊y⌋ := Int.floor_eq_iff.mpr ⟨by linarith, by linarith⟩
    have hne : |y - ⌊y⌋| ≠ 1 / 2 := by rw [abs_of_nonneg (by linarith)]; exact ht.ne
    rw [hR, if_neg hne, if_pos ht]
  · have hR : ⌊y + 1 / 2⌋ = ⌊y⌋ + 1 := Int.floor_eq_iff.mpr ⟨by push_cast; linarith, by push_cast; linarith⟩
    have hhalf : |y - ((⌊y⌋ + 1 : ℤ) : ℚ)| = 1 / 2 := by
      push_cast; rw [abs_of_nonpos (by linarith)]; linarith
    rw [hR, if_pos hhalf, if_neg (show ¬y - ⌊y⌋ < 1 / 2 by linarith),
      if_neg (show ¬1 / 2 < y - ⌊y⌋ by linarith), cFmod_two_of_nonneg (by omega)]
    by_cases he : Even ⌊y⌋
    · have hodd : (⌊y⌋ + 1) % 2 ≠ 0 := by rw [Int.even_iff] at he; omega
      rw [if_pos (by exact_mod_cast hodd), if_pos he]; push_cast; ring
    · have hev : (⌊y⌋ + 1) % 2 = 0 := by rw [Int.not_even_iff_odd, Int.odd_iff] at he; omega
      rw [if_neg (by simp [hev]), if_neg he]
  · have hR : ⌊y + 1 / 2⌋ = ⌊y⌋ + 1 := Int.floor_eq_iff.mpr ⟨by push_cast; linarith, by push_cast; linarith⟩
    have hne : |y - ((⌊y⌋ + 1 : ℤ) : ℚ)| ≠ 1 / 2 := by
      push_cast; rw [abs_of_nonpos (by linarith)]; intro h; linarith
    rw [hR, if_neg hne, if_neg (show ¬y - ⌊y⌋ < 1 / 2 by linarith), if_pos ht]

/-- On exact numbers, the shared body of `Compat_roundeven*` rounds half to even. -/
theorem roundevenWith_floatOps (x : ℚ) : roundevenWith floatOps (1 / 2) 1 2 x = roundHalfEven x := by
  have hpos : ∀ {y : ℚ}, 0 ≤ y → (0 : ℚ) ≤ roundHalfEven y := fun {y} hy => by
    have := Int.floor_nonneg.mpr hy
    have : 0 ≤ roundHalfEven y := by unfold roundHalfEven; split_ifs <;> omega
    exact_mod_cast this
  show cCopysign (roundedMagnitude floatOps (1 / 2) 1 2 |x|) x = _
  rw [roundedMagnitude_of_nonneg (abs_nonneg x), cCopysign]
  split_ifs with hx
  · rw [abs_of_neg hx, abs_of_nonneg (hpos (neg_nonneg.mpr hx.le)), roundHalfEven_neg]; push_cast; ring
  · rw [abs_of_nonneg (not_lt.mp hx), abs_of_nonneg (hpos (not_lt.mp hx))]

/-- `Compat_roundevenf` and `Compat_roundeven` both round to the nearest integer, halfway cases to
the even neighbour, for every input and both signs. -/
theorem compatRoundeven_eq_roundHalfEven (x : ℚ) :
    compatRoundevenf x = roundHalfEven x ∧ compatRoundeven x = roundHalfEven x :=
  ⟨roundevenWith_floatOps x, roundevenWith_floatOps x⟩

end CvCuda.Compat
