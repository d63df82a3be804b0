import CvCuda.Test.JointBilateralFilter

/-!
# What the joint bilateral filter tests accept

Reference: `src/tests/cvcuda/system/TestOpJointBilateralFilter.cpp:40-86` (`CompareImages`,
`CompareTensors`, `CompareVarShapes`), `:144-158` (`CPUJointBilateralFilterVarShape`) and the two
tests, `:184-259` and `:261-400`.

Each test runs the CUDA operator, computes gold outputs with the reference filter from zeroed
buffers, and compares the operator's output with them: `JointBilateralFilter_packed` with
`CompareTensors` at a tolerance of `0.9f`, `JointBilateralFilter_VarShape` with
`CompareVarShapes` at `1.0f`. The bytes compared are integers, so the packed test accepts an
output exactly when it is the reference filter at every pixel of every sample
(`packedTestPasses_iff`), and the VarShape test exactly when every pixel is within one of the
reference filter of its image (`varShapeTestPasses_iff`).

The dimensions are the `int` values the tests read from the tensors and images, passed to the
`size_t` parameters of the comparisons (`toSizeT`). `ImageDims` states what the tests' images
satisfy: `int32_t` values, with rows that do not overlap.

## Shape of the proof

* `compareImages_iff`: the comparison loops accept exactly the images within the tolerance at
  every pixel; `compareTensors_iff` and `compareVarShapes_iff` lift it to a batch.
* `foldl_set_getElem?`: the loop of `CPUJointBilateralFilterVarShape` sets each image once, from
  its own old value, so that image `i` of the result is image `i` filtered
  (`cpuJointBilateralFilterVarShape_getD`).
* `Buffer.abs_read_sub_le_iff_eq` and `Buffer.abs_read_sub_le_one_iff` turn the tolerances into
  conditions on bytes; the two results combine them with the pixel lemmas of the reference filter
  (`cpuJointBilateralFilter_apply_pixel`, `cpuJointBilateralFilterTensor_apply_pixel`).
-/

namespace CvCuda.Test

/-! ## The model -/

/-- `static_cast<size_t>` of an `int`. -/
def toSizeT (x : Int) : Nat := (x % 18446744073709551616).toNat

/-- `CompareImages` (`:40-59`): whether every pixel of the test image is within `delta` of the
gold one; the loops stop at the first pixel that is not. -/
def compareImages (pTest pGold : Buffer) (columns rows rowStride : Nat) (delta : ℚ) : Bool :=
  (List.range rows).all fun j => (List.range columns).all fun k =>
    let offset := j * rowStride + k
    let diff := |pTest.read offset - pGold.read offset|
    !decide (diff > delta)

/-- `CompareTensors` (`:61-72`): `CompareImages` on every sample, sample `i` at
`i * sampleStride`. -/
def compareTensors (vTest vGold : Buffer) (columns rows batch rowStride sampleStride : Nat)
    (delta : ℚ) : Bool :=
  (List.range batch).all fun i =>
    compareImages (vTest.shift (i * sampleStride : Nat)) (vGold.shift (i * sampleStride : Nat))
      columns rows rowStride delta

/-- `CompareVarShapes` (`:74-86`): `CompareImages` on every image of `vTest`, each with its own
dimensions. -/
def compareVarShapes (vTest vGold : List Buffer) (vColumns vRows vRowStride : List Int)
    (delta : ℚ) : Bool :=
  (List.range (List.length vTest)).all fun i =>
    compareImages (vTest.getD i zeroBuffer) (vGold.getD i zeroBuffer)
      (toSizeT (vColumns.getD i 0)) (toSizeT (vRows.getD i 0)) (toSizeT (vRowStride.getD i 0)) delta

/-- The arguments `CPUJointBilateralFilterVarShape` gives `CPUJointBilateralFilter` for image `i`
(`:151-155`): those of `CPUJointBilateralFilterTensor`, from the `i`-th element of each vector. -/
def varShapeArgs (vColumns vRows vRowStride vDiameter : List Int)
    (vSigmaColor vSigmaSpace : List ℚ) (i : Nat) : FilterArgs :=
  tensorArgs (vColumns.getD i 0) (vRows.getD i 0) (vRowStride.getD i 0) (vDiameter.getD i 0)
    (vSigmaColor.getD i 0) (vSigmaSpace.getD i 0)

section VarShapeArgs

variable (vColumns vRows vRowStride vDiameter : List Int) (vSigmaColor vSigmaSpace : List ℚ)
  (i : Nat)

@[simp] theorem varShapeArgs_columns :
    (varShapeArgs vColumns vRows vRowStride vDiameter vSigmaColor vSigmaSpace i).columns =
      vColumns.getD i 0 := rfl

@[simp] theorem varShapeArgs_rows :
    (varShapeArgs vColumns vRows vRowStride vDiameter vSigmaColor vSigmaSpace i).rows =
      vRows.getD i 0 := rfl

@[simp] theorem varShapeArgs_rowStride :
    (varShapeArgs vColumns vRows vRowStride vDiameter vSigmaColor vSigmaSpace i).rowStride =
      vRowStride.getD i 0 := rfl

end VarShapeArgs

/-- `CPUJointBilateralFilterVarShape` (`:144-158`): image `i` of `vOut` filtered from image `i`
of the inputs, for every image of `vIn`. -/
def cpuJointBilateralFilterVarShape (e : ExpOps) (vIn vInColor vOut : List Buffer)
    (vColumns vRows vRowStride vDiameter : List Int) (vSigmaColor vSigmaSpace : List ℚ) :
    List Buffer :=
  (List.range (List.length vIn)).foldl (fun out i =>
    out.set i (cpuJointBilateralFilter e
      (varShapeArgs vColumns vRows vRowStride vDiameter vSigmaColor vSigmaSpace i)
      (vIn.getD i zeroBuffer) (vInColor.getD i zeroBuffer) (out.getD i zeroBuffer))) vOut

/-- `0.9f`, the tolerance of `JointBilateralFilter_packed`. -/
def packedDelta : ℚ := 15099494 / 16777216

/-- The last check of `JointBilateralFilter_packed` (`:184-259`) on the output `outTest` of the
operator: the gold output of `CPUJointBilateralFilterTensor` from a zeroed buffer, with samples
`numRows * rowStride` apart, compared with `outTest` by `CompareTensors`. The test fills the input
planes with `i % 113` and `i % 109`. -/
def packedTestPasses (e : ExpOps) (inGold inColorGold outTest : Buffer)
    (columns rows batch rowStride d : Int) (sigmaColor sigmaSpace : ℚ) : Bool :=
  let sampleStride := rows * rowStride
  let outGold := cpuJointBilateralFilterTensor e inGold inColorGold zeroBuffer columns rows batch
    rowStride sampleStride d sigmaColor sigmaSpace
  compareTensors outTest outGold (toSizeT columns) (toSizeT rows) (toSizeT batch)
    (toSizeT rowStride) (toSizeT sampleStride) packedDelta

/-- The last check of `JointBilateralFilter_VarShape` (`:261-400`) on the images `dstVec` the
operator wrote: the gold images of `CPUJointBilateralFilterVarShape` from zeroed buffers,
compared with `dstVec` by `CompareVarShapes` at `1.0f`. -/
def varShapeTestPasses (e : ExpOps) (srcVec srcColorVec dstVec : List Buffer)
    (vColumns vRows vRowStride vDiameter : List Int) (vSigmaColor vSigmaSpace : List ℚ) : Bool :=
  let goldVec := cpuJointBilateralFilterVarShape e srcVec srcColorVec
    (List.replicate (List.length srcVec) zeroBuffer) vColumns vRows vRowStride vDiameter
    vSigmaColor vSigmaSpace
  compareVarShapes dstVec goldVec vColumns vRows vRowStride 1

/-- The dimensions of an image of the tests: `int32_t` values, with rows that do not overlap. -/
structure ImageDims (columns rows rowStride : Int) : Prop where
  columns_nonneg : 0 ≤ columns
  columns_le : columns ≤ rowStride
  rows_nonneg : 0 ≤ rows
  rows_lt : rows < 2147483648
  rowStride_lt : rowStride < 2147483648

/-- The dimensions of `JointBilateralFilter_packed`: those of its images, a number of samples,
and a sample stride `numRows * rowStride` that an `int` holds. -/
structure PackedDims (columns rows batch rowStride : Int) extends
    ImageDims columns rows rowStride : Prop where
  batch_nonneg : 0 ≤ batch
  batch_lt : batch < 2147483648
  sampleStride_lt : rows * rowStride < 2147483648

/-! ## Tolerances on bytes -/

theorem toSizeT_of_nonneg {x : Int} (h0 : 0 ≤ x) (h1 : x < 2147483648) :
    (toSizeT x : Int) = x := by
  rw [toSizeT, Int.emod_eq_of_lt h0 (by omega), Int.toNat_of_nonneg h0]

/-- Two bytes are within a tolerance below one exactly when they are equal. -/
theorem Buffer.abs_read_sub_le_iff_eq {p q : Buffer} {o o' : Int} {δ : ℚ} (h0 : 0 ≤ δ)
    (h1 : δ < 1) : |p.read o - q.read o'| ≤ δ ↔ p o = q o' := by
  constructor
  · intro h
    have hlt : ((|((p o).toNat : ℤ) - (q o').toNat| : ℤ) : ℚ) < 1 := by
      push_cast
      exact h.trans_lt h1
    have habs := abs_lt.mp (show |((p o).toNat : ℤ) - (q o').toNat| < 1 by exact_mod_cast hlt)
    exact UInt8.toNat.inj (by omega)
  · intro h
    rw [Buffer.read, Buffer.read, h, sub_self, abs_zero]
    exact h0

/-- Two bytes are within one of each other as rationals exactly when they are as naturals. -/
theorem Buffer.abs_read_sub_le_one_iff {p q : Buffer} {o o' : Int} :
    |p.read o - q.read o'| ≤ 1 ↔ (p o).toNat ≤ (q o').toNat + 1 ∧ (q o').toNat ≤ (p o).toNat + 1 := by
  have hcast : |p.read o - q.read o'| = ((|((p o).toNat : ℤ) - (q o').toNat| : ℤ) : ℚ) := by
    simp only [Buffer.read]
    push_cast
    rfl
  rw [hcast, ← Int.cast_one, Int.cast_le, abs_le]
  omega

/-! ## The comparisons -/

theorem compareImages_iff {pTest pGold : Buffer} {columns rows rowStride : Int} {delta : ℚ}
    (h : ImageDims columns rows rowStride) :
    compareImages pTest pGold (toSizeT columns) (toSizeT rows) (toSizeT rowStride) delta = true ↔
      ∀ j k, 0 ≤ j → j < rows → 0 ≤ k → k < columns →
        |pTest.read (j * rowStride + k) - pGold.read (j * rowStride + k)| ≤ delta := by
  have hc := toSizeT_of_nonneg h.columns_nonneg (by have := h.columns_le; have := h.rowStride_lt; omega)
  have hr := toSizeT_of_nonneg h.rows_nonneg h.rows_lt
  have hs := toSizeT_of_nonneg (h.columns_nonneg.trans h.columns_le) h.rowStride_lt
  simp only [compareImages, List.all_eq_true, List.mem_range, Bool.not_eq_true',
    decide_eq_false_iff_not, not_lt]
  constructor
  · intro hall j k hj hj' hk hk'
    have hoff : ((j.toNat * toSizeT rowStride + k.toNat : Nat) : Int) = j * rowStride + k := by
      push_cast
      rw [hs, Int.toNat_of_nonneg hj, Int.toNat_of_nonneg hk]
    have := hall j.toNat (by omega) k.toNat (by omega)
    rwa [hoff] at this
  · intro hall j hj k hk
    have hoff : ((j * toSizeT rowStride + k : Nat) : Int) = (j : Int) * rowStride + k := by
      push_cast
      rw [hs]
    rw [hoff]
    exact hall j k (by omega) (by omega) (by omega) (by omega)

theorem compareTensors_iff {vTest vGold : Buffer} {columns rows batch rowStride : Int}
    {delta : ℚ} (h : PackedDims columns rows batch rowStride) :
    compareTensors vTest vGold (toSizeT columns) (toSizeT rows) (toSizeT batch) (toSizeT rowStride)
        (toSizeT (rows * rowStride)) delta = true ↔
      ∀ i j k, 0 ≤ i → i < batch → 0 ≤ j → j < rows → 0 ≤ k → k < columns →
        |vTest.read (i * (rows * rowStride) + (j * rowStride + k)) -
          vGold.read (i * (rows * rowStride) + (j * rowStride + k))| ≤ delta := by
  have hb := toSizeT_of_nonneg h.batch_nonneg h.batch_lt
  have hss := toSizeT_of_nonneg
    (Int.mul_nonneg h.rows_nonneg (h.columns_nonneg.trans h.columns_le)) h.sampleStride_lt
  simp only [compareTensors, List.all_eq_true, List.mem_range, compareImages_iff h.toImageDims]
  constructor
  · intro hall i j k hi hi' hj hj' hk hk'
    have hoff : ((i.toNat * toSizeT (rows * rowStride) : Nat) : Int) = i * (rows * rowStride) := by
      push_cast
      rw [hss, Int.toNat_of_nonneg hi]
    have := hall i.toNat (by omega) j k hj hj' hk hk'
    rw [hoff] at this
    exact this
  · intro hall i hi j k hj hj' hk hk'
    have hoff : ((i * toSizeT (rows * rowStride) : Nat) : Int) = (i : Int) * (rows * rowStride) := by
      push_cast
      rw [hss]
    rw [hoff]
    exact hall i j k (by omega) (by omega) hj hj' hk hk'

theorem compareVarShapes_iff {vTest vGold : List Buffer} {vColumns vRows vRowStride : List Int}
    {delta : ℚ}
    (h : ∀ i < List.length vTest,
      ImageDims (vColumns.getD i 0) (vRows.getD i 0) (vRowStride.getD i 0)) :
    compareVarShapes vTest vGold vColumns vRows vRowStride delta = true ↔
      ∀ i < List.length vTest, ∀ j k, 0 ≤ j → j < vRows.getD i 0 → 0 ≤ k → k < vColumns.getD i 0 →
        |(vTest.getD i zeroBuffer).read (j * vRowStride.getD i 0 + k) -
          (vGold.getD i zeroBuffer).read (j * vRowStride.getD i 0 + k)| ≤ delta := by
  simp only [compareVarShapes, List.all_eq_true, List.mem_range]
  exact forall₂_congr fun i hi => compareImages_iff (h i hi)

/-! ## The loop over the images -/

section SetLoop

variable {α : Type} (f : Nat → α → α) (l : List α) (d : α)

theorem length_foldl_set (n : Nat) :
    ((List.range n).foldl (fun out i => out.set i (f i (out.getD i d))) l).length =
      l.length := by
  induction n with
  | zero => rfl
  | succ n ih => simp only [List.range_succ, List.foldl_append, List.foldl_cons, List.foldl_nil,
      List.length_set, ih]

/-- A loop that sets each index once, from its own old value: after `n` passes the element at
`i < n` is `f i` of what it was, and every other element is unchanged. -/
theorem foldl_set_getElem? (n i : Nat) :
    ((List.range n).foldl (fun out i => out.set i (f i (out.getD i d))) l)[i]? =
      if i < n then l[i]?.map (f i) else l[i]? := by
  induction n generalizing i with
  | zero => rfl
  | succ n ih =>
    have hn : ((List.range n).foldl (fun out i => out.set i (f i (out.getD i d))) l).getD n d =
        l.getD n d := by
      rw [List.getD_eq_getElem?_getD, ih, if_neg (Nat.lt_irrefl n), ← List.getD_eq_getElem?_getD]
    rw [List.range_succ, List.foldl_append, List.foldl_cons, List.foldl_nil, List.getElem?_set,
      length_foldl_set, hn, ih]
    by_cases hni : n = i
    · subst hni
      rcases Nat.lt_or_ge n l.length with hl | hl
      · simp [hl, List.getD_eq_getElem?_getD, List.getElem?_eq_getElem hl]
      · simp [Nat.not_lt.mpr hl, List.getElem?_eq_none hl]
    · rw [if_neg hni]
      split_ifs <;> first | rfl | omega

end SetLoop

/-- Image `i` of the result of `CPUJointBilateralFilterVarShape`, for an image `i` of `vIn` and of
`vOut`, is image `i` of `vOut` filtered with the `i`-th arguments. -/
theorem cpuJointBilateralFilterVarShape_getD (e : ExpOps) (vIn vInColor vOut : List Buffer)
    (vColumns vRows vRowStride vDiameter : List Int) (vSigmaColor vSigmaSpace : List ℚ) {i : Nat}
    (hi : i < List.length vIn) (ho : i < List.length vOut) :
    (cpuJointBilateralFilterVarShape e vIn vInColor vOut vColumns vRows vRowStride vDiameter
        vSigmaColor vSigmaSpace).getD i zeroBuffer =
      cpuJointBilateralFilter e
        (varShapeArgs vColumns vRows vRowStride vDiameter vSigmaColor vSigmaSpace i)
        (vIn.getD i zeroBuffer) (vInColor.getD i zeroBuffer) (vOut.getD i zeroBuffer) := by
  rw [List.getD_eq_getElem?_getD, cpuJointBilateralFilterVarShape,
    foldl_set_getElem? (fun i b => cpuJointBilateralFilter e
      (varShapeArgs vColumns vRows vRowStride vDiameter vSigmaColor vSigmaSpace i)
      (vIn.getD i zeroBuffer) (vInColor.getD i zeroBuffer) b), if_pos hi,
    List.getD_eq_getElem?_getD vOut, List.getElem?_eq_getElem ho]
  rfl

/-! ## What the tests accept -/

theorem packedDelta_nonneg : 0 ≤ packedDelta := by norm_num [packedDelta]

theorem packedDelta_lt_one : packedDelta < 1 := by norm_num [packedDelta]

/-- `JointBilateralFilter_packed` accepts the operator's output exactly when it is, at every pixel
of every sample, the byte of the reference filter: the tolerance `0.9f` on integer bytes leaves
no room for a difference. -/
theorem packedTestPasses_iff (e : ExpOps) (inGold inColorGold outTest : Buffer)
    (columns rows batch rowStride d : Int) (sigmaColor sigmaSpace : ℚ)
    (h : PackedDims columns rows batch rowStride) :
    packedTestPasses e inGold inColorGold outTest columns rows batch rowStride d sigmaColor
        sigmaSpace = true ↔
      ∀ i j k, 0 ≤ i → i < batch → 0 ≤ j → j < rows → 0 ≤ k → k < columns →
        outTest (i * (rows * rowStride) + (j * rowStride + k)) =
          filteredPixel e (tensorArgs columns rows rowStride d sigmaColor sigmaSpace)
            (inGold.shift (i * (rows * rowStride))) (inColorGold.shift (i * (rows * rowStride)))
            j k := by
  have hgold := @cpuJointBilateralFilterTensor_apply_pixel e inGold inColorGold zeroBuffer columns
    rows batch rowStride (rows * rowStride) d sigmaColor sigmaSpace h.columns_le le_rfl
  unfold packedTestPasses
  rw [compareTensors_iff h]
  constructor
  · intro hall i j k hi hi' hj hj' hk hk'
    have hclose := hall i j k hi hi' hj hj' hk hk'
    rw [Buffer.abs_read_sub_le_iff_eq packedDelta_nonneg packedDelta_lt_one] at hclose
    rw [hclose, hgold hi hi' hj hj' hk hk']
  · intro hall i j k hi hi' hj hj' hk hk'
    rw [Buffer.abs_read_sub_le_iff_eq packedDelta_nonneg packedDelta_lt_one,
      hall i j k hi hi' hj hj' hk hk', hgold hi hi' hj hj' hk hk']

theorem packedTestPasses_iff_small :
    PackedDims 2 2 2 3 ∧
    (packedTestPasses constExp rampBuffer rampBuffer zeroBuffer 2 2 2 3 3 5 3 = true ↔
      ∀ i j k, 0 ≤ i → i < 2 → 0 ≤ j → j < 2 → 0 ≤ k → k < 2 →
        zeroBuffer (i * (2 * 3) + (j * 3 + k)) =
          filteredPixel constExp (tensorArgs 2 2 3 3 5 3) (rampBuffer.shift (i * (2 * 3)))
            (rampBuffer.shift (i * (2 * 3))) j k) :=
  have h : PackedDims 2 2 2 3 :=
    ⟨⟨by decide, by decide, by decide, by decide, by decide⟩, by decide, by decide, by decide⟩
  ⟨h, packedTestPasses_iff constExp rampBuffer rampBuffer zeroBuffer 2 2 2 3 3 5 3 h⟩

/-- `JointBilateralFilter_VarShape` accepts the operator's images exactly when every pixel of
every image is within one of the byte of the reference filter of that image. -/
theorem varShapeTestPasses_iff (e : ExpOps) (srcVec srcColorVec dstVec : List Buffer)
    (vColumns vRows vRowStride vDiameter : List Int) (vSigmaColor vSigmaSpace : List ℚ)
    (hlen : List.length dstVec ≤ List.length srcVec)
    (h : ∀ i < List.length dstVec,
      ImageDims (vColumns.getD i 0) (vRows.getD i 0) (vRowStride.getD i 0)) :
    varShapeTestPasses e srcVec srcColorVec dstVec vColumns vRows vRowStride vDiameter vSigmaColor
        vSigmaSpace = true ↔
      ∀ i < List.length dstVec, ∀ j k, 0 ≤ j → j < vRows.getD i 0 → 0 ≤ k →
        k < vColumns.getD i 0 →
        ((dstVec.getD i zeroBuffer) (j * vRowStride.getD i 0 + k)).toNat ≤
            (filteredPixel e
              (varShapeArgs vColumns vRows vRowStride vDiameter vSigmaColor vSigmaSpace i)
              (srcVec.getD i zeroBuffer) (srcColorVec.getD i zeroBuffer) j k).toNat + 1 ∧
          (filteredPixel e
              (varShapeArgs vColumns vRows vRowStride vDiameter vSigmaColor vSigmaSpace i)
              (srcVec.getD i zeroBuffer) (srcColorVec.getD i zeroBuffer) j k).toNat ≤
            ((dstVec.getD i zeroBuffer) (j * vRowStride.getD i 0 + k)).toNat + 1 := by
  unfold varShapeTestPasses
  rw [compareVarShapes_iff h]
  refine forall₂_congr fun i hi => ?_
  have hsrc : i < List.length srcVec := by omega
  rw [cpuJointBilateralFilterVarShape_getD e _ _ _ _ _ _ _ _ _ hsrc
    (by rw [List.length_replicate]; exact hsrc)]
  have hgold := @cpuJointBilateralFilter_apply_pixel e
    (varShapeArgs vColumns vRows vRowStride vDiameter vSigmaColor vSigmaSpace i)
    (srcVec.getD i zeroBuffer) (srcColorVec.getD i zeroBuffer)
    ((List.replicate (List.length srcVec) zeroBuffer).getD i zeroBuffer) (h i hi).columns_le
  simp only [varShapeArgs_columns, varShapeArgs_rows, varShapeArgs_rowStride] at hgold
  constructor
  · intro hall j k hj hj' hk hk'
    have hclose := hall j k hj hj' hk hk'
    rwa [Buffer.abs_read_sub_le_one_iff, hgold hj hj' hk hk'] at hclose
  · intro hall j k hj hj' hk hk'
    rw [Buffer.abs_read_sub_le_one_iff, hgold hj hj' hk hk']
    exact hall j k hj hj' hk hk'


theorem varShapeTestPasses_iff_single :
    List.length [zeroBuffer] ≤ List.length [rampBuffer] ∧
    (∀ i < List.length [zeroBuffer], ImageDims ([2].getD i 0) ([2].getD i 0) ([3].getD i 0)) ∧
    (varShapeTestPasses constExp [rampBuffer] [rampBuffer] [zeroBuffer] [2] [2] [3] [3] [5] [3] =
        true ↔
      ∀ i < List.length [zeroBuffer], ∀ j k, 0 ≤ j → j < [2].getD i 0 → 0 ≤ k →
        k < [2].getD i 0 →
        (([zeroBuffer].getD i zeroBuffer) (j * [3].getD i 0 + k)).toNat ≤
            (filteredPixel constExp (varShapeArgs [2] [2] [3] [3] [5] [3] i)
              ([rampBuffer].getD i zeroBuffer) ([rampBuffer].getD i zeroBuffer) j k).toNat + 1 ∧
          (filteredPixel constExp (varShapeArgs [2] [2] [3] [3] [5] [3] i)
              ([rampBuffer].getD i zeroBuffer) ([rampBuffer].getD i zeroBuffer) j k).toNat ≤
            (([zeroBuffer].getD i zeroBuffer) (j * [3].getD i 0 + k)).toNat + 1) :=
  have h : ∀ i < List.length [zeroBuffer], ImageDims ([2].getD i 0) ([2].getD i 0) ([3].getD i 0) :=
    fun i hi => by
      obtain rfl : i = 0 := by simpa using hi
      exact ⟨by decide, by decide, by decide, by decide, by decide⟩
  ⟨le_rfl, h, varShapeTestPasses_iff constExp [rampBuffer] [rampBuffer] [zeroBuffer] [2] [2] [3]
    [3] [5] [3] le_rfl h⟩

end CvCuda.Test
