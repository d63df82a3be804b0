import CvCuda.Compat.RoundEven

/-!
# The reference joint bilateral filter of the tests

Reference: `src/tests/cvcuda/system/TestOpJointBilateralFilter.cpp:35-150`.

`CPUJointBilateralFilter` is the CPU implementation the tests compare the CUDA operator with. For
every pixel `(k, j)` of a `columns × rows` image it walks the square of side `2 * radius + 1`
around it and, for the pixels `(x, y)` of the disk of radius `radius`, adds
`exp(distanceSquared * spaceCoefficient + colorDistance² * colorCoefficient)` to `denominator`
and that weight times the pixel to `numerator`; a pixel outside the image counts as 0 in both
planes. It stores `saturate_cast(numerator / denominator)` at `j * rowStride + k`.
`CPUJointBilateralFilterTensor` runs it on every sample of a batch.

Arithmetic is exact over ℚ: `std::round` is `cRound`, `std::exp` is any function with positive
values (`ExpOps`), and the two coefficients are finite rationals. The C++ accumulates in `float`,
and on the wrappers' path its coefficient `-1 / (2 * sigma * sigma)` is `-inf` at `sigma = 0`,
where every weight is NaN and the byte stored is 255: neither is covered here. On that model, for a radius of 0 or more, the denominator is never 0,
the mean lies in `[0, 255]` and the saturation and the conversions to `uint32_t` and `uint8_t`
are exact (`filteredPixel_spec`); the byte stored lies between the smallest and the largest value
the disk reads (`filteredPixel_mem_range`); the filter writes exactly the pixels of the image
when `columns ≤ rowStride` (`cpuJointBilateralFilter_writes`), and with radius 0 it copies its
input (`cpuJointBilateralFilter_radius_zero`).

## Shape of the proof

The loops are folds. `windowStep` is the body of the two inner loops; `Between lo hi` is what
every body keeps when the values the window reads lie in `[lo, hi]`, and `windowStep_center` is
what the centre pixel adds. `foldl_of_mem` turns "kept by every step, made by the step at one
element" into a fact about the whole fold, and the outer loops become one fold of
`Function.update` over a list of pixels (`foldl_foldl_eq`), which `foldl_update_apply_of_mem`
reads back.
-/

namespace CvCuda.Test

open CvCuda.Compat

/-! ## The model -/

/-- A byte buffer seen from a pointer into it: the byte at each offset. -/
def Buffer := Int → UInt8

/-- `static_cast<float>(p[offset])`. -/
def Buffer.read (p : Buffer) (offset : Int) : ℚ := (p offset).toNat

/-- `std::exp` on exact numbers: any function with positive values. -/
structure ExpOps where
  exp : ℚ → ℚ
  exp_pos : ∀ x, 0 < exp x

/-- The values `a, a + 1, ..., b` of `for (int y = a; y <= b; y++)`. -/
def intRange (a b : Int) : List Int := (List.range (b + 1 - a).toNat).map fun n : Nat => a + n

/-- The arguments of `CPUJointBilateralFilter` other than the buffers. -/
structure FilterArgs where
  columns : Int
  rows : Int
  rowStride : Int
  radius : Int
  colorCoefficient : ℚ
  spaceCoefficient : ℚ

/-- `static uint32_t saturate_cast(float n)` (`:35-38`): `std::min(255.0f, std::round(n))`
converted to `uint32_t`. -/
def saturateCast (n : ℚ) : Nat := ⌊min 255 (cRound n)⌋.toNat

/-- The body of the two inner loops at `(x, y)` for the output pixel `(k, j)` (`:98-116`): the
accumulators `(numerator, denominator)` after it. -/
def windowStep (e : ExpOps) (a : FilterArgs) (pIn pInColor : Buffer) (centerColor : ℚ) (j k : Int)
    (acc : ℚ × ℚ) (y x : Int) : ℚ × ℚ :=
  let distanceSquared : ℚ := (k - x) * (k - x) + (j - y) * (j - y)
  if distanceSquared ≤ a.radius * a.radius then
    let inside := 0 ≤ x ∧ x < a.columns ∧ 0 ≤ y ∧ y < a.rows
    let pixel := if inside then pIn.read (y * a.rowStride + x) else 0
    let pixelColor := if inside then pInColor.read (y * a.rowStride + x) else 0
    let eSpace := distanceSquared * a.spaceCoefficient
    let oneNormSize := |pixelColor - centerColor|
    let eColor := oneNormSize * oneNormSize * a.colorCoefficient
    let weight := e.exp (eSpace + eColor)
    (acc.1 + weight * pixel, acc.2 + weight)
  else acc

/-- `(numerator, denominator)` for the output pixel `(k, j)` after the two inner loops
(`:92-118`), summed exactly: the `float` rounding of the C++ accumulators is not modelled. -/
def windowSums (e : ExpOps) (a : FilterArgs) (pIn pInColor : Buffer) (j k : Int) : ℚ × ℚ :=
  let centerColor := pInColor.read (j * a.rowStride + k)
  (intRange (j - a.radius) (j + a.radius)).foldl (fun acc y =>
    (intRange (k - a.radius) (k + a.radius)).foldl (fun acc x =>
      windowStep e a pIn pInColor centerColor j k acc y x) acc) (0, 0)

/-- The byte stored at `pOut[j * rowStride + k]` (`:119-120`). -/
def filteredPixel (e : ExpOps) (a : FilterArgs) (pIn pInColor : Buffer) (j k : Int) : UInt8 :=
  let s := windowSums e a pIn pInColor j k
  let denominator := if s.2 ≠ 0 then s.2 else 1
  UInt8.ofNat (saturateCast (s.1 / denominator))

/-- `CPUJointBilateralFilter` (`:85-122`): the output buffer after the two outer loops. -/
def cpuJointBilateralFilter (e : ExpOps) (a : FilterArgs) (pIn pInColor pOut : Buffer) : Buffer :=
  (intRange 0 (a.rows - 1)).foldl (fun out j =>
    (intRange 0 (a.columns - 1)).foldl (fun out k =>
      Function.update out (j * a.rowStride + k) (filteredPixel e a pIn pInColor j k)) out) pOut

/-- The buffer seen from the pointer `p + d`. -/
def Buffer.shift (p : Buffer) (d : Int) : Buffer := fun o => p (d + o)

/-- The arguments `CPUJointBilateralFilterTensor` gives `CPUJointBilateralFilter` (`:128-130`):
`radius = diameter / 2` and the coefficients `-1 / (2 * sigma * sigma)`, in exact arithmetic. For
`sigma ≠ 0` this is the `float` expression's value; at `sigma = 0` the `float` expression is
`-inf` (so is it when `2 * sigma * sigma` underflows to 0), while the rational `-1 / 0` is `0`:
what is proved of the filter on these arguments speaks of `sigma ≠ 0`. -/
def tensorArgs (columns rows rowStride diameter : Int) (sigmaColor sigmaSpace : ℚ) : FilterArgs :=
  ⟨columns, rows, rowStride, diameter.tdiv 2, -1 / (2 * sigmaColor * sigmaColor),
    -1 / (2 * sigmaSpace * sigmaSpace)⟩

/-- `CPUJointBilateralFilterTensor` (`:124-139`): the filter on every sample of a batch, sample `i`
at offset `i * sampleStride` of each buffer. -/
def cpuJointBilateralFilterTensor (e : ExpOps) (vIn vInColor vOut : Buffer)
    (columns rows batch rowStride sampleStride diameter : Int) (sigmaColor sigmaSpace : ℚ) :
    Buffer :=
  (intRange 0 (batch - 1)).foldl (fun out i =>
    let filtered := cpuJointBilateralFilter e
      (tensorArgs columns rows rowStride diameter sigmaColor sigmaSpace)
      (vIn.shift (i * sampleStride)) (vInColor.shift (i * sampleStride))
      (out.shift (i * sampleStride))
    fun o => filtered (o - i * sampleStride)) vOut

/-- `std::exp` replaced by the constant 1, whose values are positive: the filter then averages
the disk. -/
def constExp : ExpOps := ⟨fun _ => 1, fun _ => one_pos⟩

/-- The tests' input pattern `i % 113` (`:229`). -/
def rampBuffer : Buffer := fun o => UInt8.ofNat (o.toNat % 113)

/-- A zeroed output buffer. -/
def zeroBuffer : Buffer := fun _ => 0

/-- A 2 × 2 image in rows of stride 3, with diameter 3, `sigmaColor` 5 and `sigmaSpace` 3. -/
def smallArgs : FilterArgs := tensorArgs 2 2 3 3 5 3

/-! ## Folds -/

section Folds

variable {α β γ : Type}

theorem mem_intRange {a b x : Int} : x ∈ intRange a b ↔ a ≤ x ∧ x ≤ b := by
  simp only [intRange, List.mem_map, List.mem_range]
  constructor
  · rintro ⟨n, hn, rfl⟩
    omega
  · intro h
    exact ⟨(x - a).toNat, by omega, by omega⟩

/-- A property every step keeps holds after the fold. -/
theorem foldl_invariant {f : β → α → β} {P : β → Prop} :
    ∀ {l : List α}, (∀ b a, a ∈ l → P b → P (f b a)) → ∀ b, P b → P (l.foldl f b)
  | [], _, _, hb => hb
  | a :: _, hf, b, hb => foldl_invariant (fun b' a' ha' => hf b' a' (List.mem_cons_of_mem a ha'))
      (f b a) (hf b a (List.mem_cons_self a _) hb)

/-- When every step keeps `Q` and `P`, and the step at `a₀ ∈ l` makes `P` from `Q`, a fold from a
state with `Q` ends with `P`. -/
theorem foldl_of_mem {f : β → α → β} {P Q : β → Prop} (hQ : ∀ b a, Q b → Q (f b a))
    (hP : ∀ b a, P b → P (f b a)) {a₀ : α} (h₀ : ∀ b, Q b → P (f b a₀)) {l : List α}
    (hl : a₀ ∈ l) {b : β} (hb : Q b) : P (l.foldl f b) := by
  obtain ⟨l₁, l₂, rfl⟩ := List.append_of_mem hl
  rw [List.foldl_append, List.foldl_cons]
  exact foldl_invariant (fun b a _ => hP b a) _ (h₀ _ (foldl_invariant (fun b a _ => hQ b a) b hb))

/-- Two nested loops are one loop over the pairs they visit, in order. -/
theorem foldl_foldl_eq (f : β → α → γ → β) (ys : List α) (xs : List γ) (b : β) :
    ys.foldl (fun acc y => xs.foldl (fun acc x => f acc y x) acc) b =
      (ys.flatMap fun y => xs.map (y, ·)).foldl (fun acc p => f acc p.1 p.2) b := by
  induction ys generalizing b with
  | nil => rfl
  | cons y ys ih => simp [List.flatMap_cons, List.foldl_append, List.foldl_map, ih]

/-- Writing `val a` at `off a` for every `a` of `l`, in order: at an offset written by one element
only, that element's value. -/
theorem foldl_update_apply_of_mem (off : α → Int) (val : α → UInt8) {l : List α} {a : α}
    (ha : a ∈ l) (huniq : ∀ b ∈ l, off b = off a → b = a) (g : Buffer) :
    (l.foldl (fun f b => Function.update f (off b) (val b)) g) (off a) = val a := by
  induction l generalizing g with
  | nil => cases ha
  | cons b l ih =>
    rw [List.foldl_cons]
    by_cases hal : a ∈ l
    · exact ih hal (fun c hc => huniq c (List.mem_cons_of_mem b hc)) _
    · have hba : b = a := (List.mem_cons.mp ha).resolve_right hal |>.symm
      subst hba
      refine foldl_invariant (P := fun f : Buffer => f (off b) = val b) (fun f c hc hf => ?_) _
        (Function.update_same _ _ _)
      have hne : off c ≠ off b := fun h => hal (huniq c (List.mem_cons_of_mem b hc) h ▸ hc)
      exact (Function.update_noteq hne.symm _ _).trans hf

/-- Writing `val a` at `off a` for every `a` of `l`: an offset no element writes keeps its byte. -/
theorem foldl_update_apply_of_forall_ne (off : α → Int) (val : α → UInt8) {l : List α} {o : Int}
    (h : ∀ b ∈ l, off b ≠ o) (g : Buffer) :
    (l.foldl (fun f b => Function.update f (off b) (val b)) g) o = g o :=
  @foldl_invariant α Buffer _ (fun f => f o = g o) l
    (fun _ b hb hf => (Function.update_noteq (h b hb).symm _ _).trans hf) g rfl

end Folds

/-! ## One output pixel -/

theorem Buffer.read_nonneg (p : Buffer) (o : Int) : 0 ≤ p.read o := Nat.cast_nonneg _

theorem Buffer.read_le (p : Buffer) (o : Int) : p.read o ≤ 255 := by
  have := UInt8.toNat_lt_size (p o)
  unfold Buffer.read
  exact_mod_cast Nat.le_of_lt_succ this

/-- The value the window loop reads from `pIn` at `(x, y)` (`:104-106`): the byte there inside
the image, 0 outside. -/
def windowPixel (a : FilterArgs) (pIn : Buffer) (y x : Int) : ℚ :=
  if 0 ≤ x ∧ x < a.columns ∧ 0 ≤ y ∧ y < a.rows then pIn.read (y * a.rowStride + x) else 0

/-- Accumulators holding a sum of values in `[lo, hi]` with non-negative weights:
`lo * denominator ≤ numerator ≤ hi * denominator`. -/
def Between (lo hi : ℚ) (acc : ℚ × ℚ) : Prop :=
  0 ≤ acc.2 ∧ lo * acc.2 ≤ acc.1 ∧ acc.1 ≤ hi * acc.2

/-- Adding a value in `[lo, hi]` with a positive weight keeps the accumulators `Between lo hi`. -/
theorem Between.add {lo hi : ℚ} {acc : ℚ × ℚ} (h : Between lo hi acc) {w p : ℚ} (hw : 0 < w)
    (hlo : lo ≤ p) (hhi : p ≤ hi) : Between lo hi (acc.1 + w * p, acc.2 + w) := by
  obtain ⟨h0, h1, h2⟩ := h
  have h3 : w * lo ≤ w * p := mul_le_mul_of_nonneg_left hlo hw.le
  have h4 : w * p ≤ w * hi := mul_le_mul_of_nonneg_left hhi hw.le
  refine ⟨by dsimp only; linarith, ?_, ?_⟩ <;> dsimp only <;> rw [mul_add] <;> linarith

section Window

variable (e : ExpOps) (a : FilterArgs) (pIn pInColor : Buffer) (centerColor : ℚ) (j k : Int)

/-- The pixel a step adds is the one the window reads. -/
theorem windowStep_eq (acc : ℚ × ℚ) (y x : Int) :
    windowStep e a pIn pInColor centerColor j k acc y x =
      if ((k - x) * (k - x) + (j - y) * (j - y) : ℚ) ≤ a.radius * a.radius then
        let pixelColor := if 0 ≤ x ∧ x < a.columns ∧ 0 ≤ y ∧ y < a.rows then
          pInColor.read (y * a.rowStride + x) else 0
        let weight := e.exp (((k - x) * (k - x) + (j - y) * (j - y) : ℚ) * a.spaceCoefficient +
          |pixelColor - centerColor| * |pixelColor - centerColor| * a.colorCoefficient)
        (acc.1 + weight * windowPixel a pIn y x, acc.2 + weight)
      else acc := by
  simp only [windowStep, windowPixel]

/-- When every value the window reads in the disk lies in `[lo, hi]`, a step keeps the
accumulators `Between lo hi`. -/
theorem windowStep_between {lo hi : ℚ}
    (hwin : ∀ y x, (k - x) * (k - x) + (j - y) * (j - y) ≤ a.radius * a.radius →
      lo ≤ windowPixel a pIn y x ∧ windowPixel a pIn y x ≤ hi)
    (acc : ℚ × ℚ) (h : Between lo hi acc) (y x : Int) :
    Between lo hi (windowStep e a pIn pInColor centerColor j k acc y x) := by
  rw [windowStep_eq]
  by_cases hd : ((k - x) * (k - x) + (j - y) * (j - y) : ℚ) ≤ a.radius * a.radius
  · rw [if_pos hd]
    have hp := hwin y x (by exact_mod_cast hd)
    exact h.add (e.exp_pos _) hp.1 hp.2
  · rw [if_neg hd]
    exact h

theorem windowStep_den_le (acc : ℚ × ℚ) (y x : Int) :
    acc.2 ≤ (windowStep e a pIn pInColor centerColor j k acc y x).2 := by
  simp only [windowStep]
  split_ifs <;> simp [(e.exp_pos _).le]

/-- The centre pixel is in the disk once the radius is not negative, and adds a positive weight. -/
theorem windowStep_center (hr : 0 ≤ a.radius) {acc : ℚ × ℚ} (h : 0 ≤ acc.2) :
    0 < (windowStep e a pIn pInColor centerColor j k acc j k).2 := by
  have hd : ((k - k : Int) : ℚ) * (k - k : Int) + (j - j : Int) * (j - j : Int) ≤
      (a.radius : ℚ) * a.radius := by
    simp only [sub_self, Int.cast_zero, mul_zero, add_zero]
    positivity
  simp only [windowStep]
  rw [if_pos (by push_cast at hd ⊢; exact hd)]
  exact add_pos_of_nonneg_of_pos h (e.exp_pos _)

/-- After the two inner loops the accumulators are `Between lo hi` when every value the window
reads in the disk lies in `[lo, hi]`. -/
theorem windowSums_between {lo hi : ℚ}
    (hwin : ∀ y x, (k - x) * (k - x) + (j - y) * (j - y) ≤ a.radius * a.radius →
      lo ≤ windowPixel a pIn y x ∧ windowPixel a pIn y x ≤ hi) :
    Between lo hi (windowSums e a pIn pInColor j k) :=
  foldl_invariant (fun b y _ hb => foldl_invariant
    (fun b x _ hb => windowStep_between e a pIn pInColor _ j k hwin b hb y x) b hb) _
    ⟨le_rfl, by simp, by simp⟩

/-- The denominator of the window is positive once the radius is not negative. -/
theorem windowSums_den_pos (hr : 0 ≤ a.radius) : 0 < (windowSums e a pIn pInColor j k).2 := by
  have hmono := windowStep_den_le e a pIn pInColor (pInColor.read (j * a.rowStride + k)) j k
  have hinner : ∀ acc y, 0 ≤ acc.2 → 0 ≤ ((intRange (k - a.radius) (k + a.radius)).foldl
      (fun acc x => windowStep e a pIn pInColor (pInColor.read (j * a.rowStride + k)) j k acc y x)
      acc).2 := fun acc y h =>
    foldl_invariant (P := fun b : ℚ × ℚ => 0 ≤ b.2) (fun b x _ hb => hb.trans (hmono b y x)) acc h
  have hpos : ∀ acc y, 0 < acc.2 → 0 < ((intRange (k - a.radius) (k + a.radius)).foldl
      (fun acc x => windowStep e a pIn pInColor (pInColor.read (j * a.rowStride + k)) j k acc y x)
      acc).2 := fun acc y h =>
    foldl_invariant (P := fun b : ℚ × ℚ => 0 < b.2) (fun b x _ hb => hb.trans_le (hmono b y x))
      acc h
  exact foldl_of_mem (Q := fun b : ℚ × ℚ => 0 ≤ b.2) (P := fun b : ℚ × ℚ => 0 < b.2) hinner hpos
    (fun b hb => foldl_of_mem (Q := fun b : ℚ × ℚ => 0 ≤ b.2) (P := fun b : ℚ × ℚ => 0 < b.2)
      (fun b x hb => hb.trans (hmono b j x)) (fun b x hb => hb.trans_le (hmono b j x))
      (fun b hb => windowStep_center e a pIn pInColor _ j k hr hb)
      (mem_intRange.mpr ⟨by omega, by omega⟩) hb)
    (mem_intRange.mpr ⟨by omega, by omega⟩) le_rfl

end Window

theorem windowPixel_mem (a : FilterArgs) (pIn : Buffer) (y x : Int) :
    0 ≤ windowPixel a pIn y x ∧ windowPixel a pIn y x ≤ 255 := by
  unfold windowPixel
  split_ifs
  · exact ⟨pIn.read_nonneg _, pIn.read_le _⟩
  · norm_num

/-- On a value in `[0, 255]`, `saturate_cast` is `std::round` and fits a byte. -/
theorem saturateCast_of_mem {x : ℚ} (h0 : 0 ≤ x) (h1 : x ≤ 255) :
    (saturateCast x : ℚ) = cRound x ∧ saturateCast x < 256 := by
  have hr : cRound x = ⌊x + 1 / 2⌋ := cRound_of_nonneg h0
  have hlo : 0 ≤ ⌊x + 1 / 2⌋ := Int.floor_nonneg.mpr (by linarith)
  have hhi : ⌊x + 1 / 2⌋ ≤ 255 := Int.floor_le_iff.mpr (by push_cast; linarith)
  have hmin : min 255 (cRound x) = cRound x := min_eq_right (by rw [hr]; exact_mod_cast hhi)
  rw [saturateCast, hmin, hr, Int.floor_intCast]
  exact ⟨by exact_mod_cast Int.toNat_of_nonneg hlo, by omega⟩

section Pixel

variable (e : ExpOps) (a : FilterArgs) (pIn pInColor : Buffer) (j k : Int)

/-- The mean of the window lies in `[0, 255]`. -/
theorem windowSums_mean_mem (hr : 0 ≤ a.radius) :
    0 ≤ (windowSums e a pIn pInColor j k).1 / (windowSums e a pIn pInColor j k).2 ∧
      (windowSums e a pIn pInColor j k).1 / (windowSums e a pIn pInColor j k).2 ≤ 255 := by
  obtain ⟨-, hnum, hle⟩ := windowSums_between e a pIn pInColor j k
    (fun y x _ => windowPixel_mem a pIn y x)
  have hden := windowSums_den_pos e a pIn pInColor j k hr
  rw [zero_mul] at hnum
  exact ⟨div_nonneg hnum hden.le, (div_le_iff₀ hden).mpr hle⟩

/-- The byte stored for `(k, j)` is `std::round` of the mean of the window. -/
theorem filteredPixel_toNat (hr : 0 ≤ a.radius) :
    ((filteredPixel e a pIn pInColor j k).toNat : ℚ) =
      cRound ((windowSums e a pIn pInColor j k).1 / (windowSums e a pIn pInColor j k).2) := by
  obtain ⟨h0, h1⟩ := windowSums_mean_mem e a pIn pInColor j k hr
  obtain ⟨hcast, hlt⟩ := saturateCast_of_mem h0 h1
  simp only [filteredPixel, if_pos (windowSums_den_pos e a pIn pInColor j k hr).ne']
  rw [UInt8.toNat_ofNat_of_lt hlt, hcast]

end Pixel

/-- For a radius of 0 or more, in exact arithmetic, the reference filter's denominator is never 0,
the mean `numerator / denominator` lies in `[0, 255]`, and the byte stored is `std::round` of it:
the saturation to 255 and the conversions to `uint32_t` and `uint8_t` never change the value. -/
theorem filteredPixel_spec (e : ExpOps) (a : FilterArgs) (pIn pInColor : Buffer) (j k : Int)
    (hr : 0 ≤ a.radius) :
    0 < (windowSums e a pIn pInColor j k).2 ∧
    0 ≤ (windowSums e a pIn pInColor j k).1 / (windowSums e a pIn pInColor j k).2 ∧
    (windowSums e a pIn pInColor j k).1 / (windowSums e a pIn pInColor j k).2 ≤ 255 ∧
    ((filteredPixel e a pIn pInColor j k).toNat : ℚ) =
      cRound ((windowSums e a pIn pInColor j k).1 / (windowSums e a pIn pInColor j k).2) :=
  ⟨windowSums_den_pos e a pIn pInColor j k hr, windowSums_mean_mem e a pIn pInColor j k hr |>.1,
    windowSums_mean_mem e a pIn pInColor j k hr |>.2, filteredPixel_toNat e a pIn pInColor j k hr⟩

theorem filteredPixel_spec_small :
    0 ≤ smallArgs.radius ∧
    (0 < (windowSums constExp smallArgs rampBuffer rampBuffer 1 0).2 ∧
    0 ≤ (windowSums constExp smallArgs rampBuffer rampBuffer 1 0).1 /
      (windowSums constExp smallArgs rampBuffer rampBuffer 1 0).2 ∧
    (windowSums constExp smallArgs rampBuffer rampBuffer 1 0).1 /
      (windowSums constExp smallArgs rampBuffer rampBuffer 1 0).2 ≤ 255 ∧
    ((filteredPixel constExp smallArgs rampBuffer rampBuffer 1 0).toNat : ℚ) =
      cRound ((windowSums constExp smallArgs rampBuffer rampBuffer 1 0).1 /
        (windowSums constExp smallArgs rampBuffer rampBuffer 1 0).2)) :=
  ⟨by decide, filteredPixel_spec _ _ _ _ _ _ (by decide)⟩

/-! ## The range of a pixel -/

/-- `std::round` keeps a value in `[lo, hi]`, for whole numbers `lo ≤ hi`, in `[lo, hi]`. -/
theorem cRound_mem_of_mem {x : ℚ} {lo hi : ℕ} (hlo : (lo : ℚ) ≤ x) (hhi : x ≤ hi) :
    (lo : ℚ) ≤ cRound x ∧ cRound x ≤ hi := by
  rw [cRound_of_nonneg ((Nat.cast_nonneg lo).trans hlo)]
  constructor
  · exact_mod_cast Int.le_floor.mpr (by push_cast; linarith)
  · exact_mod_cast Int.floor_le_iff.mpr (by push_cast; linarith)

/-- In exact arithmetic with finite coefficients, the reference filter never leaves the range of
the values in its disk: when every value the window reads in the disk of radius `radius` around
`(k, j)`, 0 outside the image, lies in `[lo, hi]`, so does the byte stored for `(k, j)`. In
particular a region of one value keeps it. -/
theorem filteredPixel_mem_range (e : ExpOps) (a : FilterArgs) (pIn pInColor : Buffer) (j k : Int)
    (lo hi : Nat) (hr : 0 ≤ a.radius)
    (hwin : ∀ y x, (k - x) * (k - x) + (j - y) * (j - y) ≤ a.radius * a.radius →
      (lo : ℚ) ≤ windowPixel a pIn y x ∧ windowPixel a pIn y x ≤ hi) :
    lo ≤ (filteredPixel e a pIn pInColor j k).toNat ∧
      (filteredPixel e a pIn pInColor j k).toNat ≤ hi := by
  obtain ⟨-, hnum, hle⟩ := windowSums_between e a pIn pInColor j k hwin
  have hden := windowSums_den_pos e a pIn pInColor j k hr
  have hmean := cRound_mem_of_mem ((le_div_iff₀ hden).mpr hnum) ((div_le_iff₀ hden).mpr hle)
  rw [← filteredPixel_toNat e a pIn pInColor j k hr] at hmean
  exact ⟨by exact_mod_cast hmean.1, by exact_mod_cast hmean.2⟩

/-- With radius 0 the disk around `(1, 1)` is the pixel itself, whose byte `4` the filter keeps. -/
theorem filteredPixel_mem_range_center :
    (0 : Int) ≤ ({ smallArgs with radius := 0 } : FilterArgs).radius ∧
    (∀ y x : Int, (1 - x) * (1 - x) + (1 - y) * (1 - y) ≤
        ({ smallArgs with radius := 0 } : FilterArgs).radius *
          ({ smallArgs with radius := 0 } : FilterArgs).radius →
      ((4 : Nat) : ℚ) ≤ windowPixel { smallArgs with radius := 0 } rampBuffer y x ∧
        windowPixel { smallArgs with radius := 0 } rampBuffer y x ≤ (4 : Nat)) ∧
    (4 ≤ (filteredPixel constExp { smallArgs with radius := 0 } rampBuffer rampBuffer 1 1).toNat ∧
      (filteredPixel constExp { smallArgs with radius := 0 } rampBuffer rampBuffer 1 1).toNat ≤ 4) :=
  have hwin : ∀ y x : Int, (1 - x) * (1 - x) + (1 - y) * (1 - y) ≤
      ({ smallArgs with radius := 0 } : FilterArgs).radius *
        ({ smallArgs with radius := 0 } : FilterArgs).radius →
      ((4 : Nat) : ℚ) ≤ windowPixel { smallArgs with radius := 0 } rampBuffer y x ∧
        windowPixel { smallArgs with radius := 0 } rampBuffer y x ≤ (4 : Nat) := by
    intro y x hd
    change (1 - x) * (1 - x) + (1 - y) * (1 - y) ≤ 0 at hd
    have hx : (1 - x) * (1 - x) = 0 := le_antisymm (by linarith [mul_self_nonneg (1 - y)])
      (mul_self_nonneg _)
    have hy : (1 - y) * (1 - y) = 0 := le_antisymm (by linarith [mul_self_nonneg (1 - x)])
      (mul_self_nonneg _)
    obtain rfl : x = 1 := by have := mul_self_eq_zero.mp hx; omega
    obtain rfl : y = 1 := by have := mul_self_eq_zero.mp hy; omega
    decide
  ⟨le_rfl, hwin, filteredPixel_mem_range constExp _ rampBuffer rampBuffer 1 1 4 4 le_rfl hwin⟩

/-! ## The whole image -/

/-- The pixels `(j, k)` the two outer loops of `CPUJointBilateralFilter` visit, in order. -/
def pixels (a : FilterArgs) : List (Int × Int) :=
  (intRange 0 (a.rows - 1)).flatMap fun j => (intRange 0 (a.columns - 1)).map (j, ·)

theorem mem_pixels {a : FilterArgs} {p : Int × Int} :
    p ∈ pixels a ↔ 0 ≤ p.1 ∧ p.1 < a.rows ∧ 0 ≤ p.2 ∧ p.2 < a.columns := by
  obtain ⟨j, k⟩ := p
  simp only [pixels, List.mem_flatMap, List.mem_map, mem_intRange, Prod.mk.injEq]
  constructor
  · rintro ⟨j', hj, k', hk, rfl, rfl⟩
    omega
  · intro h
    exact ⟨j, by omega, k, by omega, rfl, rfl⟩

/-- In rows of stride `rs`, the offset `j * rs + k` of a column `0 ≤ k < rs` gives back `j` and
`k`. -/
theorem offset_inj {rs j j' k k' : Int} (hk : 0 ≤ k) (hk' : k < rs) (hk2 : 0 ≤ k') (hk2' : k' < rs)
    (h : j * rs + k = j' * rs + k') : j = j' ∧ k = k' := by
  have hdiv : ∀ {j k : Int}, 0 ≤ k → k < rs → (j * rs + k) / rs = j := fun hk hk' => by
    rw [add_comm, Int.add_mul_ediv_right _ _ (by omega), Int.ediv_eq_zero_of_lt hk hk', zero_add]
  have hj : j = j' := calc
    j = (j * rs + k) / rs := (hdiv hk hk').symm
    _ = (j' * rs + k') / rs := by rw [h]
    _ = j' := hdiv hk2 hk2'
  subst hj
  exact ⟨rfl, by omega⟩

/-- `CPUJointBilateralFilter` writes, pixel after pixel, the filtered byte at the pixel's
offset. -/
theorem cpuJointBilateralFilter_eq (e : ExpOps) (a : FilterArgs) (pIn pInColor pOut : Buffer) :
    cpuJointBilateralFilter e a pIn pInColor pOut = (pixels a).foldl (fun f p =>
      Function.update f (p.1 * a.rowStride + p.2) (filteredPixel e a pIn pInColor p.1 p.2)) pOut :=
  foldl_foldl_eq _ _ _ _

section Image

variable (e : ExpOps) (a : FilterArgs) (pIn pInColor pOut : Buffer)

theorem cpuJointBilateralFilter_apply_pixel (hstride : a.columns ≤ a.rowStride) {j k : Int}
    (hj : 0 ≤ j) (hj' : j < a.rows) (hk : 0 ≤ k) (hk' : k < a.columns) :
    cpuJointBilateralFilter e a pIn pInColor pOut (j * a.rowStride + k) =
      filteredPixel e a pIn pInColor j k := by
  rw [cpuJointBilateralFilter_eq]
  refine foldl_update_apply_of_mem (fun p : Int × Int => p.1 * a.rowStride + p.2)
    (fun p => filteredPixel e a pIn pInColor p.1 p.2)
    (show ((j, k) : Int × Int) ∈ pixels a from mem_pixels.mpr ⟨hj, hj', hk, hk'⟩)
    (fun b hb hoff => ?_) pOut
  obtain ⟨-, -, hb2, hb2'⟩ := mem_pixels.mp hb
  obtain ⟨h1, h2⟩ := offset_inj hb2 (by omega) hk (by omega) hoff
  exact Prod.ext h1 h2

theorem cpuJointBilateralFilter_apply_of_forall_ne {o : Int}
    (ho : ∀ j k, 0 ≤ j → j < a.rows → 0 ≤ k → k < a.columns → j * a.rowStride + k ≠ o) :
    cpuJointBilateralFilter e a pIn pInColor pOut o = pOut o := by
  rw [cpuJointBilateralFilter_eq]
  refine foldl_update_apply_of_forall_ne _ _ (fun b hb => ?_) pOut
  obtain ⟨h1, h2, h3, h4⟩ := mem_pixels.mp hb
  exact ho b.1 b.2 h1 h2 h3 h4

end Image

/-- When the rows do not overlap (`columns ≤ rowStride`), `CPUJointBilateralFilter` stores the
filtered byte of every pixel `(k, j)` of the image at `j * rowStride + k` and leaves every other
byte of the output buffer as it was: the padding at the end of each row is never written. -/
theorem cpuJointBilateralFilter_writes (e : ExpOps) (a : FilterArgs) (pIn pInColor pOut : Buffer)
    (hstride : a.columns ≤ a.rowStride) :
    (∀ j k, 0 ≤ j → j < a.rows → 0 ≤ k → k < a.columns →
      cpuJointBilateralFilter e a pIn pInColor pOut (j * a.rowStride + k) =
        filteredPixel e a pIn pInColor j k) ∧
    ∀ o, (∀ j k, 0 ≤ j → j < a.rows → 0 ≤ k → k < a.columns → j * a.rowStride + k ≠ o) →
      cpuJointBilateralFilter e a pIn pInColor pOut o = pOut o :=
  ⟨fun _ _ hj hj' hk hk' =>
      cpuJointBilateralFilter_apply_pixel e a pIn pInColor pOut hstride hj hj' hk hk',
    fun _ ho => cpuJointBilateralFilter_apply_of_forall_ne e a pIn pInColor pOut ho⟩

theorem cpuJointBilateralFilter_writes_small :
    smallArgs.columns ≤ smallArgs.rowStride ∧
    ((∀ j k, 0 ≤ j → j < smallArgs.rows → 0 ≤ k → k < smallArgs.columns →
      cpuJointBilateralFilter constExp smallArgs rampBuffer rampBuffer zeroBuffer
          (j * smallArgs.rowStride + k) =
        filteredPixel constExp smallArgs rampBuffer rampBuffer j k) ∧
    ∀ o, (∀ j k, 0 ≤ j → j < smallArgs.rows → 0 ≤ k → k < smallArgs.columns →
        j * smallArgs.rowStride + k ≠ o) →
      cpuJointBilateralFilter constExp smallArgs rampBuffer rampBuffer zeroBuffer o = zeroBuffer o) :=
  ⟨by decide, cpuJointBilateralFilter_writes _ _ _ _ _ (by decide)⟩

/-! ## Radius 0 -/

theorem intRange_self (x : Int) : intRange x x = [x] := by
  rw [intRange, show (x + 1 - x).toNat = 1 by omega]
  simp [List.range_succ]

theorem cRound_natCast (n : ℕ) : cRound n = n := by
  rw [cRound_of_nonneg (Nat.cast_nonneg n)]
  exact_mod_cast Int.floor_eq_iff.mpr ⟨by push_cast; linarith, by push_cast; linarith⟩

/-- With radius 0 the window is the pixel itself, whose byte comes back unchanged. -/
theorem filteredPixel_radius_zero (e : ExpOps) (a : FilterArgs) (pIn pInColor : Buffer) {j k : Int}
    (hr : a.radius = 0) (hj : 0 ≤ j) (hj' : j < a.rows) (hk : 0 ≤ k) (hk' : k < a.columns) :
    filteredPixel e a pIn pInColor j k = pIn (j * a.rowStride + k) := by
  have hmean : (windowSums e a pIn pInColor j k).1 / (windowSums e a pIn pInColor j k).2 =
      pIn.read (j * a.rowStride + k) := by
    simp only [windowSums, windowStep, hr, sub_zero, add_zero, intRange_self, List.foldl_cons,
      List.foldl_nil, sub_self, Int.cast_zero, mul_zero, le_refl, if_true, abs_zero, zero_add]
    have hin : 0 ≤ k ∧ k < a.columns ∧ 0 ≤ j ∧ j < a.rows := ⟨hk, hk', hj, hj'⟩
    rw [if_pos hin, if_pos hin, mul_div_cancel_left₀ _ (e.exp_pos _).ne']
  have hspec := filteredPixel_toNat e a pIn pInColor j k (le_of_eq hr.symm)
  rw [hmean, Buffer.read, cRound_natCast] at hspec
  exact UInt8.toNat.inj (by exact_mod_cast hspec)

/-- Running the update loop on the buffer seen from `p + d` and reading the result from `p` is the
update loop at the offsets moved by `d`. -/
theorem foldl_update_shift {α : Type} (off : α → Int) (val : α → UInt8) (l : List α) (g : Buffer)
    (d : Int) :
    (fun o => (l.foldl (fun f b => Function.update f (off b) (val b)) (g.shift d)) (o - d)) =
      l.foldl (fun f b => Function.update f (d + off b) (val b)) g := by
  induction l generalizing g with
  | nil => funext o; simp [Buffer.shift]
  | cons b l ih =>
    have hshift : Function.update (g.shift d) (off b) (val b) =
        Buffer.shift (Function.update g (d + off b) (val b)) d := by
      funext o
      simp only [Buffer.shift, Function.update_apply, add_right_inj]
    simp only [List.foldl_cons, hshift, ih]

/-- The samples' pixels `(i, (j, k))` in the order the loops of `CPUJointBilateralFilterTensor`
visit them. -/
def samplePixels (batch : Int) (a : FilterArgs) : List (Int × Int × Int) :=
  (intRange 0 (batch - 1)).flatMap fun i => (pixels a).map (i, ·)

theorem mem_samplePixels {batch : Int} {a : FilterArgs} {q : Int × Int × Int} :
    q ∈ samplePixels batch a ↔ 0 ≤ q.1 ∧ q.1 < batch ∧ q.2 ∈ pixels a := by
  obtain ⟨i, p⟩ := q
  simp only [samplePixels, List.mem_flatMap, List.mem_map, mem_intRange, Prod.mk.injEq]
  constructor
  · rintro ⟨i', hi, p', hp, rfl, rfl⟩
    exact ⟨by omega, by omega, hp⟩
  · rintro ⟨h0, h1, hp⟩
    exact ⟨i, by omega, p, hp, rfl, rfl⟩

/-- When neither rows nor samples overlap, the offset `i * ss + (j * rs + k)` of a pixel of an
image gives back the sample and the pixel. -/
theorem sample_offset_inj {ss rs columns rows i i' j j' k k' : Int} (hcols : columns ≤ rs)
    (hrows : rows * rs ≤ ss) (hj : 0 ≤ j) (hj' : j < rows) (hk : 0 ≤ k) (hk' : k < columns)
    (hj2 : 0 ≤ j') (hj2' : j' < rows) (hk2 : 0 ≤ k') (hk2' : k' < columns)
    (h : i * ss + (j * rs + k) = i' * ss + (j' * rs + k')) : i = i' ∧ j = j' ∧ k = k' := by
  have hin : ∀ {j k : Int}, 0 ≤ j → j < rows → 0 ≤ k → k < columns →
      0 ≤ j * rs + k ∧ j * rs + k < ss := fun {j k} hj hj' hk hk' => by
    have hpos : 0 ≤ j * rs := Int.mul_nonneg hj (by omega)
    have hmul : j * rs ≤ (rows - 1) * rs := mul_le_mul_of_nonneg_right (by omega) (by omega)
    exact ⟨by omega, by linarith⟩
  obtain ⟨h1, h2⟩ := hin hj hj' hk hk'
  obtain ⟨h3, h4⟩ := hin hj2 hj2' hk2 hk2'
  obtain ⟨rfl, hjk⟩ := offset_inj h1 h2 h3 h4 h
  exact ⟨rfl, offset_inj hk (by omega) hk2 (by omega) hjk⟩

section Batch

variable (e : ExpOps) (vIn vInColor vOut : Buffer) (columns rows batch rowStride sampleStride
  diameter : Int) (sigmaColor sigmaSpace : ℚ)

/-- `CPUJointBilateralFilterTensor` writes, pixel after pixel of sample after sample, the filtered
byte of the sample at the pixel's offset in the sample. -/
theorem cpuJointBilateralFilterTensor_eq :
    cpuJointBilateralFilterTensor e vIn vInColor vOut columns rows batch rowStride sampleStride
        diameter sigmaColor sigmaSpace =
      (samplePixels batch (tensorArgs columns rows rowStride diameter sigmaColor sigmaSpace)).foldl
        (fun f q => Function.update f (q.1 * sampleStride + (q.2.1 * rowStride + q.2.2))
          (filteredPixel e (tensorArgs columns rows rowStride diameter sigmaColor sigmaSpace)
            (vIn.shift (q.1 * sampleStride)) (vInColor.shift (q.1 * sampleStride)) q.2.1 q.2.2))
        vOut := by
  simp only [cpuJointBilateralFilterTensor, cpuJointBilateralFilter_eq, foldl_update_shift]
  exact foldl_foldl_eq _ _ _ _

theorem cpuJointBilateralFilterTensor_apply_pixel (hcols : columns ≤ rowStride)
    (hrows : rows * rowStride ≤ sampleStride) {i j k : Int} (hi : 0 ≤ i) (hi' : i < batch)
    (hj : 0 ≤ j) (hj' : j < rows) (hk : 0 ≤ k) (hk' : k < columns) :
    cpuJointBilateralFilterTensor e vIn vInColor vOut columns rows batch rowStride sampleStride
        diameter sigmaColor sigmaSpace (i * sampleStride + (j * rowStride + k)) =
      filteredPixel e (tensorArgs columns rows rowStride diameter sigmaColor sigmaSpace)
        (vIn.shift (i * sampleStride)) (vInColor.shift (i * sampleStride)) j k := by
  rw [cpuJointBilateralFilterTensor_eq]
  have hq : ((i, j, k) : Int × Int × Int) ∈
      samplePixels batch (tensorArgs columns rows rowStride diameter sigmaColor sigmaSpace) :=
    mem_samplePixels.mpr ⟨hi, hi', mem_pixels.mpr ⟨hj, hj', hk, hk'⟩⟩
  refine foldl_update_apply_of_mem
    (fun q : Int × Int × Int => q.1 * sampleStride + (q.2.1 * rowStride + q.2.2)) _ hq
    (fun q hq' hoff => ?_) vOut
  obtain ⟨-, -, hp⟩ := mem_samplePixels.mp hq'
  obtain ⟨h1, h2, h3, h4⟩ := mem_pixels.mp hp
  obtain ⟨rfl, rfl, rfl⟩ := sample_offset_inj hcols hrows h1 h2 h3 h4 hj hj' hk hk' hoff
  rfl

theorem cpuJointBilateralFilterTensor_apply_of_forall_ne {o : Int}
    (ho : ∀ i j k, 0 ≤ i → i < batch → 0 ≤ j → j < rows → 0 ≤ k → k < columns →
      i * sampleStride + (j * rowStride + k) ≠ o) :
    cpuJointBilateralFilterTensor e vIn vInColor vOut columns rows batch rowStride sampleStride
      diameter sigmaColor sigmaSpace o = vOut o := by
  rw [cpuJointBilateralFilterTensor_eq]
  refine foldl_update_apply_of_forall_ne _ _ (fun q hq => ?_) vOut
  obtain ⟨h0, h1, hp⟩ := mem_samplePixels.mp hq
  obtain ⟨h2, h3, h4, h5⟩ := mem_pixels.mp hp
  exact ho q.1 q.2.1 q.2.2 h0 h1 h2 h3 h4 h5

end Batch

/-- When neither rows (`columns ≤ rowStride`) nor samples (`rows * rowStride ≤ sampleStride`)
overlap, `CPUJointBilateralFilterTensor` filters each sample on its own: the byte at pixel
`(k, j)` of sample `i` is the single-image reference filter of sample `i`'s input planes, and
every byte outside the samples' images keeps its value. -/
theorem cpuJointBilateralFilterTensor_writes (e : ExpOps) (vIn vInColor vOut : Buffer)
    (columns rows batch rowStride sampleStride diameter : Int) (sigmaColor sigmaSpace : ℚ)
    (hcols : columns ≤ rowStride) (hrows : rows * rowStride ≤ sampleStride) :
    (∀ i j k, 0 ≤ i → i < batch → 0 ≤ j → j < rows → 0 ≤ k → k < columns →
      cpuJointBilateralFilterTensor e vIn vInColor vOut columns rows batch rowStride sampleStride
          diameter sigmaColor sigmaSpace (i * sampleStride + (j * rowStride + k)) =
        filteredPixel e (tensorArgs columns rows rowStride diameter sigmaColor sigmaSpace)
          (vIn.shift (i * sampleStride)) (vInColor.shift (i * sampleStride)) j k) ∧
    ∀ o, (∀ i j k, 0 ≤ i → i < batch → 0 ≤ j → j < rows → 0 ≤ k → k < columns →
        i * sampleStride + (j * rowStride + k) ≠ o) →
      cpuJointBilateralFilterTensor e vIn vInColor vOut columns rows batch rowStride sampleStride
        diameter sigmaColor sigmaSpace o = vOut o :=
  ⟨fun _ _ _ hi hi' hj hj' hk hk' => cpuJointBilateralFilterTensor_apply_pixel e vIn vInColor vOut
      columns rows batch rowStride sampleStride diameter sigmaColor sigmaSpace hcols hrows hi hi'
      hj hj' hk hk',
    fun _ ho => cpuJointBilateralFilterTensor_apply_of_forall_ne e vIn vInColor vOut columns rows
      batch rowStride sampleStride diameter sigmaColor sigmaSpace ho⟩

theorem cpuJointBilateralFilterTensor_writes_small :
    (2 : Int) ≤ 3 ∧ (2 : Int) * 3 ≤ 6 ∧
    ((∀ i j k, 0 ≤ i → i < 2 → 0 ≤ j → j < 2 → 0 ≤ k → k < 2 →
      cpuJointBilateralFilterTensor constExp rampBuffer rampBuffer zeroBuffer 2 2 2 3 6 3 5 3
          (i * 6 + (j * 3 + k)) =
        filteredPixel constExp (tensorArgs 2 2 3 3 5 3) (rampBuffer.shift (i * 6))
          (rampBuffer.shift (i * 6)) j k) ∧
    ∀ o, (∀ i j k, 0 ≤ i → i < 2 → 0 ≤ j → j < 2 → 0 ≤ k → k < 2 → i * 6 + (j * 3 + k) ≠ o) →
      cpuJointBilateralFilterTensor constExp rampBuffer rampBuffer zeroBuffer 2 2 2 3 6 3 5 3 o =
        zeroBuffer o) :=
  ⟨by decide, by decide, cpuJointBilateralFilterTensor_writes _ _ _ _ _ _ _ _ _ _ _ _
    (by decide) (by decide)⟩

end CvCuda.Test
