import CvCuda.Compat.RoundEven

/-!
# `Compat_roundevenf` and `Compat_roundeven` in IEEE 754 arithmetic

Reference: `src/util/Compat.c.in:388-429`.

`CvCuda/Compat/RoundEven.lean` runs both functions on exact rationals. Here they run on the values
of their floating type: signed numbers (a zero keeps its sign), signed infinities and NaNs. Of the
operations they use, `fabs`, `round`, `fmod`, `copysign` and `==` are exact in IEEE 754; the two
subtractions `px - rounded` and `rounded -= 1.0f` return their exact result rounded to the format,
by any rounding that leaves the format's own values alone, as every IEEE 754 rounding direction
does, and an exact zero with the sign of the direction (`Rounding`). A format (`FloatFormat`) is
its precision and its exponent range; its finite magnitudes are the multiples `m * 2^q` of its
smallest subnormal with `m < 2^prec` (`IsMag`), as for `binary32` and `binary64`. A NaN is its sign
bit, its quiet bit (the leading bit of the trailing significand) and its payload (the other
trailing bits). `fabs` and `copysign` work on the bits and keep a signalling NaN; `round` (glibc
returns `x + x`), the subtraction and `fmod` return a NaN operand quieted, the first one when both
are NaNs, as the SSE instructions do, and an invalid operation gives the x86 default NaN, negative
and quiet with payload `0`. A rounding never overflows to an infinity: the subtractions of these two
functions are exact.

On every value of the format the functions keep the sign bit of their input, return infinities as
they are and a NaN quieted, with its payload, and round a finite magnitude half to even
(`compatRoundeven_ieee`): both subtractions are exact, so the IEEE computation is the exact one of
`RoundEven.lean`.

## Shape of the proof

* `isMag_sub_core` is the integer heart of the exactness: `px - round(px)` is a multiple of the
  last bit of `px` and at most `1/2`, hence a value of the format (`isMag_abs_sub_cRound`); on a
  halfway case `round(px) - 1` is an integer below `2^prec` (`isMag_cRound_sub_one`).
* `roundevenIEEE_num` runs the function on a finite input and meets the exact model's
  `roundedMagnitude`, which `roundedMagnitude_of_nonneg` rounds half to even; on infinities and
  NaNs the function computes by `rfl`.
-/

namespace CvCuda.Compat

/-! ## Formats and values -/

/-- A binary floating-point format: `prec` bits of significand, a smallest subnormal `2^-shift`,
and `2^qmax` times that as the weight of the last bit of the largest finite values. -/
structure FloatFormat where
  prec : Nat
  shift : Nat
  qmax : Nat
  deriving DecidableEq, Repr

/-- IEEE 754 `binary32`, the C `float`. -/
def binary32 : FloatFormat := ⟨24, 149, 253⟩

/-- IEEE 754 `binary64`, the C `double`. -/
def binary64 : FloatFormat := ⟨53, 1074, 2045⟩

/-- `r` is a finite magnitude of the format: `m * 2^q` smallest subnormals, `m < 2^prec`. -/
def FloatFormat.IsMag (f : FloatFormat) (r : ℚ) : Prop :=
  ∃ m q : ℕ, m < 2 ^ f.prec ∧ q ≤ f.qmax ∧ r = (m * 2 ^ q : ℚ) / 2 ^ f.shift

/-- A rounding direction of the format: a rounding of exact results that leaves every value of the
format as it is, as each IEEE 754 direction does, and the sign of an exact zero difference, `-0`
under roundTowardNegative and `+0` under the others. -/
structure Rounding (f : FloatFormat) where
  rnd : ℚ → ℚ
  zeroNeg : Bool
  rnd_of_isMag : ∀ r : ℚ, f.IsMag |r| → rnd r = r

/-- The rounding that returns the exact result, with `+0` for a zero difference. -/
def Rounding.exact (f : FloatFormat) : Rounding f := ⟨id, false, fun _ _ => rfl⟩

/-- A value of a floating type: a number with its sign bit and magnitude, an infinity, or a NaN
with its sign bit, its quiet bit and its payload. -/
inductive FVal
  | num (neg : Bool) (mag : ℚ)
  | inf (neg : Bool)
  | nan (neg quiet : Bool) (payload : Nat)
  deriving DecidableEq, Repr

/-- `v` is a value of the format: a NaN's payload fills the trailing significand below the quiet
bit, and a signalling NaN has a payload other than `0`, which would be an infinity. -/
def FVal.In (f : FloatFormat) : FVal → Prop
  | .num _ m => f.IsMag m
  | .inf _ => True
  | .nan _ q p => p < 2 ^ (f.prec - 2) ∧ (q = true ∨ 0 < p)

/-- The sign bit. -/
def FVal.sign : FVal → Bool
  | .num s _ => s
  | .inf s => s
  | .nan s _ _ => s

/-- The number a sign bit and a magnitude stand for. -/
def signed (s : Bool) (m : ℚ) : ℚ := if s then -m else m

/-- The difference `d` of two numbers as a value: `d` rounded, with the sign of `d`, and the sign
of the direction for an exact zero. -/
def FVal.ofDiff {f : FloatFormat} (r : Rounding f) (d : ℚ) : FVal :=
  .num (if d = 0 then r.zeroNeg else decide (d < 0)) |r.rnd d|

/-! ## The operations -/

/-- `fabs`: the value with its sign bit cleared. -/
def FVal.fabs : FVal → FVal
  | .num _ m => .num false m
  | .inf _ => .inf false
  | .nan _ q p => .nan false q p

/-- `round`: the nearest integer, halfway cases away from zero; an infinity is returned and a NaN
quieted, and a zero keeps its sign. -/
def FVal.round : FVal → FVal
  | .num s m => .num s (cRound m)
  | .inf s => .inf s
  | .nan s _ p => .nan s true p

/-- The default NaN of x86, returned by an invalid operation: sign bit set, quiet, payload `0`. -/
def FVal.defaultNaN : FVal := .nan true true 0

/-- `a - b`, the exact difference rounded by `r`; a NaN operand is returned quieted, the first
one if both are NaNs, and `∞ - ∞` gives the default NaN. -/
def FVal.sub {f : FloatFormat} (r : Rounding f) : FVal → FVal → FVal
  | .num sa ma, .num sb mb => .ofDiff r (signed sa ma - signed sb mb)
  | .nan s _ p, _ => .nan s true p
  | _, .nan s _ p => .nan s true p
  | .inf sa, .inf sb => if sa = sb then .defaultNaN else .inf sa
  | .inf sa, .num _ _ => .inf sa
  | .num _ _, .inf sb => .inf !sb

/-- `a == b`: false when either is a NaN; the two zeros are equal. -/
def FVal.beq : FVal → FVal → Bool
  | .num sa ma, .num sb mb => decide (signed sa ma = signed sb mb)
  | .inf sa, .inf sb => sa == sb
  | _, _ => false

/-- `fmod(a, b)`: the remainder of the magnitudes with the sign of `a`; a NaN operand quieted, the
first one if both are NaNs; the default NaN for an infinite `a` or a zero `b`, and `a` itself for
an infinite `b`. -/
def FVal.fmod : FVal → FVal → FVal
  | .num sa ma, .num _ mb => if mb = 0 then .defaultNaN else .num sa (cFmod ma mb)
  | .nan s _ p, _ => .nan s true p
  | _, .nan s _ p => .nan s true p
  | .num sa ma, .inf _ => .num sa ma
  | .inf _, _ => .defaultNaN

/-- `copysign(a, b)`: `a` with the sign bit of `b`. -/
def FVal.copysign : FVal → FVal → FVal
  | .num _ m, b => .num b.sign m
  | .inf _, b => .inf b.sign
  | .nan _ q p, b => .nan b.sign q p

/-- The body of `Compat_roundevenf` and `Compat_roundeven` (`Compat.c.in:388-400`, `:413-423`) in
a floating type whose subtractions round by `r`. -/
def roundevenIEEE {f : FloatFormat} (r : Rounding f) (x : FVal) : FVal :=
  let px := x.fabs
  let rounded := px.round
  let rounded :=
    if (px.sub r rounded).fabs.beq (.num false (1 / 2)) then
      if !((rounded.fmod (.num false 2)).beq (.num false 0)) then rounded.sub r (.num false 1)
      else rounded
    else rounded
  rounded.copysign x

/-- `Compat_roundevenf` in `float` arithmetic. -/
def compatRoundevenfIEEE (r : Rounding binary32) (x : FVal) : FVal := roundevenIEEE r x

/-- `Compat_roundeven` in `double` arithmetic. -/
def compatRoundevenIEEE (r : Rounding binary64) (x : FVal) : FVal := roundevenIEEE r x

/-- What IEEE 754 `roundToIntegralTiesToEven` does to a value: its sign bit is kept, a finite
magnitude is rounded, an infinity is returned and a NaN quieted, with its payload. -/
def FVal.roundHalfEven : FVal → FVal
  | .num s m => .num s (Compat.roundHalfEven m)
  | .inf s => .inf s
  | .nan s _ p => .nan s true p

/-! ## The subtractions are exact -/

/-- The integer core: the distance `|M - n * 2^k|` from `M = m * 2^q` to the nearest multiple
`n * 2^k`, halfway cases up, is `m' * 2^q'` with `m' < 2^p` and `q' ≤ q`. -/
theorem isMag_sub_core {m p q k : ℕ} {n : ℤ} (hm : m < 2 ^ p)
    (h1 : 2 * n * 2 ^ k ≤ 2 * (m * 2 ^ q) + 2 ^ k)
    (h2 : 2 * (m * 2 ^ q) + 2 ^ k < 2 * (n + 1) * 2 ^ k) :
    ∃ m' q' : ℕ, m' < 2 ^ p ∧ q' ≤ q ∧ |(m * 2 ^ q : ℤ) - n * 2 ^ k| = m' * 2 ^ q' := by
  have hP : (0 : ℤ) < 2 ^ k := by positivity
  rcases le_or_lt k q with hkq | hqk
  · -- `M` is a multiple of `2^k`, so the nearest multiple is `M` itself
    obtain ⟨d, rfl⟩ := Nat.exists_eq_add_of_le hkq
    set R : ℤ := m * 2 ^ d
    have hM : (m * 2 ^ (k + d) : ℤ) = R * 2 ^ k := by rw [pow_add]; ring
    rw [hM] at h1 h2 ⊢
    have h1' : 2 * n ≤ 2 * R + 1 := le_of_mul_le_mul_right (by linarith) hP
    have h2' : 2 * R + 1 < 2 * n + 2 := lt_of_mul_lt_mul_right (by linarith) hP.le
    refine ⟨0, 0, by positivity, Nat.zero_le _, ?_⟩
    rw [show R = n by omega]
    simp
  · -- `2^k = 2^q * 2^(d + 1)`: the distance is `2^q` times `|t|`, `t = m - n * 2^(d + 1)`
    obtain ⟨d, rfl⟩ := Nat.exists_eq_add_of_lt hqk
    have hQ : (0 : ℤ) < 2 ^ q := by positivity
    have hm' : (m : ℤ) < 2 ^ p := by exact_mod_cast hm
    rw [show (2 : ℤ) ^ (q + d + 1) = 2 ^ q * 2 ^ (d + 1) by rw [add_assoc, pow_add]] at h1 h2 ⊢
    obtain ⟨t, ht⟩ : ∃ t : ℤ, t = m - n * 2 ^ (d + 1) := ⟨_, rfl⟩
    have hlo : -2 ^ (d + 1) ≤ 2 * t := le_of_mul_le_mul_left (by rw [ht]; linarith) hQ
    have hhi : 2 * t < 2 ^ (d + 1) := lt_of_mul_lt_mul_left (by rw [ht]; linarith) hQ.le
    refine ⟨t.natAbs, q, ?_, le_rfl, ?_⟩
    · -- for `n ≥ 1`, `2^(d + 1) ≤ 2 * m < 2^(p + 1)` bounds `2 * |t| ≤ 2^(d + 1)` by `2^p`
      suffices |t| < 2 ^ p by rw [Int.abs_eq_natAbs] at this; exact_mod_cast this
      have hS : (0 : ℤ) < 2 ^ (d + 1) := by positivity
      rw [ht] at hlo hhi
      have hn0 : 0 ≤ n := by
        have : 0 < (2 * n + 1) * 2 ^ (d + 1) := by
          linarith [(by positivity : (0 : ℤ) ≤ m)]
        have := (mul_pos_iff_of_pos_right hS).mp this
        omega
      rcases hn0.eq_or_lt with hn | hn
      · rw [ht, ← hn, zero_mul, sub_zero, abs_of_nonneg (by positivity)]; exact hm'
      · have hSm : (2 : ℤ) ^ (d + 1) < 2 ^ (p + 1) := by
          have := le_mul_of_one_le_left hS.le (by omega : (1 : ℤ) ≤ 2 * n - 1)
          rw [pow_succ 2 p]; linarith
        have hdp : (2 : ℤ) ^ (d + 1) ≤ 2 ^ p :=
          (pow_le_pow_iff_right₀ (by norm_num)).mpr
            (Nat.lt_succ_iff.mp ((pow_lt_pow_iff_right₀ (by norm_num)).mp hSm))
        rw [abs_lt, ht]; constructor <;> linarith [(by positivity : (0 : ℤ) < 2 ^ p)]
    · rw [show (m * 2 ^ q : ℤ) - n * (2 ^ q * 2 ^ (d + 1)) = 2 ^ q * t by rw [ht]; ring, abs_mul,
        abs_of_pos hQ, Int.abs_eq_natAbs]
      push_cast
      ring

section Format

variable {f : FloatFormat}

theorem FloatFormat.IsMag.nonneg {r : ℚ} (h : f.IsMag r) : 0 ≤ r := by
  obtain ⟨m, q, -, -, rfl⟩ := h
  positivity

/-- `round(px)` is at most `1/2` away from `px`, halfway cases up. -/
theorem sub_cRound_mem {x : ℚ} (hx : 0 ≤ x) :
    -(1 / 2) ≤ x - cRound x ∧ x - cRound x < 1 / 2 := by
  rw [cRound_of_nonneg hx]
  have h0 := Int.floor_le (x + 1 / 2)
  have h1 := Int.lt_floor_add_one (x + 1 / 2)
  constructor <;> linarith

/-- `px - round(px)` is a value of the format, for every finite `px ≥ 0` of it. -/
theorem isMag_abs_sub_cRound {x : ℚ} (hx : f.IsMag x) : f.IsMag |x - cRound x| := by
  obtain ⟨m, q, hm, hq, rfl⟩ := hx
  have hx0 : (0 : ℚ) ≤ (m * 2 ^ q : ℚ) / 2 ^ f.shift := by positivity
  obtain ⟨hlo, hhi⟩ := sub_cRound_mem hx0
  rw [cRound_of_nonneg hx0] at hlo hhi ⊢
  set n := ⌊(m * 2 ^ q : ℚ) / 2 ^ f.shift + 1 / 2⌋
  have hP : (0 : ℚ) < 2 ^ f.shift := by positivity
  have h1 : 2 * n * 2 ^ f.shift ≤ 2 * (m * 2 ^ q) + 2 ^ f.shift := by
    have : (2 * n * 2 ^ f.shift : ℚ) ≤ 2 * (m * 2 ^ q) + 2 ^ f.shift := by
      rw [div_sub' _ _ _ hP.ne', le_div_iff₀ hP] at hlo; linarith
    exact_mod_cast this
  have h2 : 2 * (m * 2 ^ q) + 2 ^ f.shift < 2 * (n + 1) * 2 ^ f.shift := by
    have : (2 * (m * 2 ^ q) + 2 ^ f.shift : ℚ) < 2 * (n + 1) * 2 ^ f.shift := by
      rw [div_sub' _ _ _ hP.ne', div_lt_iff₀ hP] at hhi; linarith
    exact_mod_cast this
  obtain ⟨m', q', hm', hq', he⟩ := isMag_sub_core hm h1 h2
  refine ⟨m', q', hm', hq'.trans hq, ?_⟩
  rw [div_sub' _ _ _ hP.ne', abs_div, abs_of_pos hP, mul_comm (2 ^ f.shift : ℚ)]
  congr 1
  exact_mod_cast he

/-- On a halfway case `round(px) - 1` is a value of the format, and `round(px) ≥ 1`. -/
theorem isMag_cRound_sub_one (hf : f.shift ≤ f.qmax) {x : ℚ} (hx : f.IsMag x)
    (hhalf : |x - cRound x| = 1 / 2) : 1 ≤ cRound x ∧ f.IsMag (cRound x - 1) := by
  have hx0 := hx.nonneg
  obtain ⟨hlo, hhi⟩ := sub_cRound_mem hx0
  have hx' : x = cRound x - 1 / 2 := by
    rcases abs_eq (by norm_num : (0 : ℚ) ≤ 1 / 2) |>.mp hhalf with h | h <;> linarith
  obtain ⟨m, q, hm, -, rfl⟩ := hx
  rw [cRound_of_nonneg hx0] at hx' ⊢
  set n := ⌊(m * 2 ^ q : ℚ) / 2 ^ f.shift + 1 / 2⌋
  -- the input lies below `2^prec / 2`: a last bit of weight `2^q ≥ 2^shift` would make it whole
  have hqk : q < f.shift := by
    by_contra hle
    obtain ⟨d, hd⟩ := Nat.exists_eq_add_of_le (not_lt.mp hle)
    have hint : (m * 2 ^ q : ℚ) / 2 ^ f.shift = m * 2 ^ d := by
      rw [hd, pow_add]; field_simp; ring
    have : ((2 * (n - m * 2 ^ d) : ℤ) : ℚ) = 1 := by push_cast; linarith
    have : 2 * (n - m * 2 ^ d) = 1 := by exact_mod_cast this
    omega
  have hmq : (m : ℚ) < 2 ^ f.prec := by exact_mod_cast hm
  have hhalf_m : (m * 2 ^ q : ℚ) / 2 ^ f.shift ≤ m / 2 := by
    have : (2 : ℚ) ^ q * 2 ≤ 2 ^ f.shift := by
      rw [← pow_succ]; exact pow_le_pow_right₀ (by norm_num) hqk
    rw [div_le_div_iff₀ (by positivity) (by norm_num)]
    linarith [mul_le_mul_of_nonneg_left this (by positivity : (0 : ℚ) ≤ m)]
  have hn1 : (1 : ℤ) ≤ n := by
    have : (0 : ℚ) < n := by linarith [(by positivity : (0 : ℚ) ≤ (m * 2 ^ q : ℚ) / 2 ^ f.shift)]
    exact_mod_cast this
  refine ⟨by exact_mod_cast hn1, (n - 1).toNat, f.shift, ?_, hf, ?_⟩
  · have h : (n : ℚ) - 1 < 2 ^ f.prec := by linarith [(by positivity : (0 : ℚ) < 2 ^ f.prec)]
    have h' : n - 1 < ((2 ^ f.prec : ℕ) : ℤ) := by push_cast; exact_mod_cast h
    omega
  · rw [mul_div_cancel_right₀ _ (by positivity)]
    have : ((n - 1).toNat : ℤ) = n - 1 := Int.toNat_of_nonneg (by omega)
    exact_mod_cast this.symm

end Format

/-! ## The functions on each kind of value -/

/-- On a finite input the IEEE computation is the exact one, and rounds half to even. -/
theorem roundevenIEEE_num {f : FloatFormat} (hf : f.shift ≤ f.qmax) (r : Rounding f) (s : Bool)
    {m : ℚ} (hm : f.IsMag m) :
    roundevenIEEE r (.num s m) = .num s (roundHalfEven m) := by
  have hm0 := hm.nonneg
  have hsub : r.rnd (m - cRound m) = m - cRound m := r.rnd_of_isMag _ (isMag_abs_sub_cRound hm)
  rw [← roundedMagnitude_of_nonneg hm0]
  simp only [roundevenIEEE, roundedMagnitude, floatOps, FVal.fabs, FVal.round, FVal.sub, signed,
    hsub, FVal.ofDiff, FVal.beq, FVal.fmod, Bool.false_eq_true, if_false, two_ne_zero,
    decide_eq_true_eq]
  by_cases hhalf : |m - cRound m| = 1 / 2
  · obtain ⟨h1, hmag⟩ := isMag_cRound_sub_one hf hm hhalf
    have hsub1 : r.rnd (cRound m - 1) = cRound m - 1 :=
      r.rnd_of_isMag _ (by rwa [abs_of_nonneg (by linarith)])
    by_cases hodd : cFmod (cRound m) 2 = 0
    · simp [hhalf, hodd, FVal.copysign, FVal.sign]
    · simp [hhalf, hodd, hsub1, FVal.copysign, FVal.sign,
        abs_of_nonneg (by linarith : (0 : ℚ) ≤ cRound m - 1)]
  · simp only [hhalf, if_false, FVal.copysign, FVal.sign]

/-- On every value of a format whose largest exponent reaches the integers, the IEEE computation
keeps the sign bit, returns infinities, quiets NaNs, and rounds finite magnitudes half to even. -/
theorem roundevenIEEE_eq {f : FloatFormat} (hf : f.shift ≤ f.qmax) (r : Rounding f) {x : FVal}
    (hx : x.In f) : roundevenIEEE r x = x.roundHalfEven := by
  cases x with
  | num s m => exact roundevenIEEE_num hf r s hx
  | inf s => cases s <;> rfl
  | nan s q p => rfl

/-- `Compat_roundevenf` and `Compat_roundeven` in IEEE 754 arithmetic keep the sign bit of every
input, return infinities as they are and a NaN quieted, with its payload, and round every finite
magnitude half to even:
`float` and `double` subtractions, under any rounding direction, are exact on the way. -/
theorem compatRoundeven_ieee (r32 : Rounding binary32) (r64 : Rounding binary64) (x y : FVal)
    (hx : x.In binary32) (hy : y.In binary64) :
    compatRoundevenfIEEE r32 x = x.roundHalfEven ∧ compatRoundevenIEEE r64 y = y.roundHalfEven :=
  ⟨roundevenIEEE_eq (by decide) r32 hx, roundevenIEEE_eq (by decide) r64 hy⟩

/-- `-2.5f` and `3.5`, halfway cases both, with the exact rounding. -/
theorem compatRoundeven_ieee_halfway :
    (FVal.num true (5 / 2)).In binary32 ∧ (FVal.num false (7 / 2)).In binary64 ∧
      compatRoundevenfIEEE (.exact binary32) (.num true (5 / 2)) =
          (FVal.num true (5 / 2)).roundHalfEven ∧
        compatRoundevenIEEE (.exact binary64) (.num false (7 / 2)) =
          (FVal.num false (7 / 2)).roundHalfEven :=
  have hx : (FVal.num true (5 / 2)).In binary32 :=
    ⟨5, 148, by norm_num [binary32], by norm_num [binary32], by norm_num [binary32]⟩
  have hy : (FVal.num false (7 / 2)).In binary64 :=
    ⟨7, 1073, by norm_num [binary64], by norm_num [binary64], by norm_num [binary64]⟩
  ⟨hx, hy, compatRoundeven_ieee _ _ _ _ hx hy⟩

/-- A negative signalling NaN comes back quiet, with its sign and payload. -/
example : compatRoundevenfIEEE (.exact binary32) (.nan true false 5) = .nan true true 5 := rfl

end CvCuda.Compat
