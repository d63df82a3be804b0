import CvCuda.Compat.GetRandom

/-!
# Argument checks of the Python operators

Reference: `src/unnamed/part_000:55-83` (`NonMaximumSuppression`) and the second document of
`src/src/cvcuda/priv/OpThreshold.hpp:92-175` (`PillowResizeInto`, `VarShapePillowResizeInto`,
`VarShapePillowResize`).

Before they submit to the operator, the Python wrappers check their arguments, throwing
`std::runtime_error`, and derive the shapes and sizes the operator is created or called with.

`NonMaximumSuppression` requires `rank(src) = rank(scores) + 1`, then compares extents 0 and 1 of
both shapes. For a `src` of rank 1 or 2 the rank check passes with a `scores` of rank 0 or 1, and
the comparison reads an extent past the rank of `scores`, which `src/` does not define; the
model stops there with `outOfRange` (`nonMaximumSuppressionShape_eq`). On success the destination
shape is the source shape.

`VarShapePillowResize` requires one output size per input image, comparing
`static_cast<int32_t>(outSizes.size())` with the image count, builds one output image per input
image with that size and the input image's format, and hands the batch to
`VarShapePillowResizeInto`, which creates the operator and runs it. The cast makes the check a
comparison modulo `2^32`; `Image::Create` refuses a size with a side that is not positive; past
both, the wrapper returns the batch it built once the operator has run on it
(`varShapePillowResize_spec`). The NVCV calls whose code is not under `src/` (`maxSize`,
`uniqueFormat`, creating and submitting the operator) are the parameter `Nvcv`.

## Shape of the proof

* `nmsDstShape_eq`: the copy loop of `NonMaximumSuppression` rebuilds a non-empty shape.
* `pushResized_of_lt`: one pass of the loop of `VarShapePillowResize` appends one image while
  its size is accepted and the batch has room, and `pushResized_of_not_sizeOk` fails otherwise;
  `pushResized_loop` and `pushResized_loop_error` run them over the first `k` images, the batch's
  capacity bounding `k`.
* `toInt32_natCast_eq_iff` turns the count check into its modular form, and
  `varShapePillowResize_spec` assembles the three.
-/

namespace CvCuda.Python

open CvCuda.Compat (toInt32)

/-- How a wrapper stops: a `std::runtime_error` with its message; a read past the end of a shape
or a vector, which `src/` leaves undefined; a `pushBack` onto a full image batch, which NVCV
refuses; an `nvcv::Exception` with status `NVCV_ERROR_INVALID_ARGUMENT`, which NVCV raises for an
image with a side that is not positive; or an error of the operator. -/
inductive WrapperError
  | runtime (what : String)
  | outOfRange
  | batchFull
  | invalidArgument
  | operator (status : Int)
  deriving DecidableEq, Repr

/-- The `i`-th element of a vector, which must be below its size. -/
def readAt {α : Type} (l : List α) (i : Nat) : Except WrapperError α :=
  match List.get? l i with
  | some a => .ok a
  | none => .error .outOfRange

theorem readAt_of_lt {α : Type} {l : List α} {i : Nat} (h : i < List.length l) :
    readAt l i = .ok l[i] := by
  simp [readAt, List.get?_eq_getElem?, List.getElem?_eq_getElem h]

/-- A tensor shape: its extents, outermost first. -/
def Shape := List Int

instance : DecidableEq Shape := inferInstanceAs (DecidableEq (List Int))

/-- `shape.shape()[i]`: the `i`-th extent, which must be below the rank. -/
def Shape.extent (s : Shape) (i : Nat) : Except WrapperError Int := readAt s i

/-! ## `NonMaximumSuppression` -/

/-- The destination shape `NonMaximumSuppression` creates (`part_000:73-78`): the first
`rank - 1` extents of `src`, then its last one. -/
def nmsDstShape (src : Shape) : Shape :=
  (List.range (List.length src - 1)).map (fun i => List.getD src i 0) ++
    [List.getD src (List.length src - 1) 0]

/-- The checks of `NonMaximumSuppression` (`part_000:55-80`) and the shape of the tensor it
creates. -/
def nonMaximumSuppressionShape (src scores : Shape) : Except WrapperError Shape := do
  if (List.length src : Int) - 1 ≠ List.length scores then
    throw (.runtime "Input src rank must 1 greater than score tensors rank")
  if (← src.extent 0) ≠ (← scores.extent 0) then
    throw (.runtime "Input src and scores must have same batch size")
  if (← src.extent 1) ≠ (← scores.extent 1) then
    throw (.runtime "Input src and scores must have same number of proposal elements")
  return nmsDstShape src

theorem Shape.extent_of_lt {s : Shape} {i : Nat} (h : i < List.length s) :
    s.extent i = .ok (List.getD s i 0) := by
  simp [Shape.extent, readAt, List.get?_eq_getElem?, List.getElem?_eq_getElem h]

theorem Shape.extent_of_le {s : Shape} {i : Nat} (h : List.length s ≤ i) :
    s.extent i = .error .outOfRange := by
  simp [Shape.extent, readAt, List.get?_eq_getElem?, List.getElem?_eq_none h]

/-- The copy loop rebuilds the source shape. -/
theorem nmsDstShape_eq {src : Shape} (h : src ≠ ([] : List Int)) : nmsDstShape src = src := by
  have hpos := List.length_pos.mpr h
  apply List.ext_getElem
  · simp only [nmsDstShape, List.length_append, List.length_map, List.length_range,
      List.length_singleton]
    omega
  · intro i h1 h2
    simp only [nmsDstShape, List.getElem_append, List.length_map, List.length_range]
    split
    · simp [List.getElem?_eq_getElem h2]
    · have hi : i = List.length src - 1 := by
        simp only [nmsDstShape, List.length_append, List.length_map, List.length_range,
          List.length_singleton] at h1
        omega
      subst hi
      simp [List.getElem?_eq_getElem h2]

/-- What `NonMaximumSuppression` does with the shapes it is given: the rank check; the batch
check, which for a `scores` of rank 0 reads past its rank; the proposal check, which for a
`scores` of rank 1 reads past its rank; and on success a destination of the source's shape. -/
theorem nonMaximumSuppressionShape_eq (src scores : Shape) :
    nonMaximumSuppressionShape src scores =
      if List.length src ≠ List.length scores + 1 then
        .error (.runtime "Input src rank must 1 greater than score tensors rank")
      else if List.length scores = 0 then .error .outOfRange
      else if List.getD src 0 0 ≠ List.getD scores 0 0 then
        .error (.runtime "Input src and scores must have same batch size")
      else if List.length scores = 1 then .error .outOfRange
      else if List.getD src 1 0 ≠ List.getD scores 1 0 then
        .error (.runtime "Input src and scores must have same number of proposal elements")
      else .ok src := by
  unfold nonMaximumSuppressionShape
  by_cases hrank : List.length src = List.length scores + 1
  · have hr : ¬((List.length src : Int) - 1 ≠ List.length scores) := by omega
    rw [if_neg hr, if_neg (not_not.mpr hrank)]
    simp only [Shape.extent_of_lt (show 0 < List.length src by omega), bind, Except.bind, pure,
      Except.pure]
    obtain hs | hs | hs :
        List.length scores = 0 ∨ List.length scores = 1 ∨ 2 ≤ List.length scores := by omega
    · simp [Shape.extent_of_le (show List.length scores ≤ 0 by omega), hs]
    · simp [Shape.extent_of_lt (show 0 < List.length scores by omega),
        Shape.extent_of_lt (show 1 < List.length src by omega),
        Shape.extent_of_le (show List.length scores ≤ 1 by omega), hs]
    · have hne : src ≠ ([] : List Int) := fun h => by simp [h] at hrank
      simp only [Shape.extent_of_lt (show 0 < List.length scores by omega),
        Shape.extent_of_lt (show 1 < List.length src by omega),
        Shape.extent_of_lt (show 1 < List.length scores by omega), nmsDstShape_eq hne,
        show List.length scores ≠ 0 by omega, show List.length scores ≠ 1 by omega, if_false]
  · rw [if_pos hrank]
    have hr : (List.length src : Int) - 1 ≠ List.length scores := by omega
    simp [hr, bind, Except.bind]

/-! ## `PillowResize` -/

/-- `nvcv::Size2D`: a width and a height. -/
structure Size2D where
  w : Int
  h : Int
  deriving DecidableEq, Repr

/-- What `PillowResizeInto` reads of a tensor through `TensorDataAccessStridedImagePlanar`. -/
structure PlanarAccess where
  numCols : Int
  numRows : Int
  numSamples : Int
  deriving DecidableEq, Repr

/-- What a wrapper creates `cvcuda::PillowResize` with: the size it reserves its workspace for,
the largest batch, and the image format. -/
structure PillowResizeArgs (Fmt : Type) where
  size : Size2D
  maxBatchSize : Int
  format : Fmt
  deriving DecidableEq, Repr

/-- The workspace size both `Into` wrappers compute: the larger width and the larger height. -/
def pillowResizeSize (src dst : Size2D) : Size2D := ⟨max src.w dst.w, max src.h dst.h⟩

/-- `PillowResizeInto` (`OpThreshold.hpp:92-119`) up to the operator it creates; an accessor is
`none` when the tensor's layout is not a strided image. -/
def pillowResizeInto {Fmt : Type} (output input : Option PlanarAccess) (format : Fmt) :
    Except WrapperError (PillowResizeArgs Fmt) :=
  match input, output with
  | some inAccess, some outAccess =>
    .ok ⟨pillowResizeSize ⟨inAccess.numCols, inAccess.numRows⟩
      ⟨outAccess.numCols, outAccess.numRows⟩, inAccess.numSamples, format⟩
  | _, _ => .error (.runtime "Incompatible input/output tensor layout")

/-- The arguments `VarShapePillowResizeInto` (`OpThreshold.hpp:137-144`) creates the operator
with, from what it reads of the batches: `input.maxSize()`, `output.maxSize()`,
`input.capacity()` and `input.uniqueFormat()`. -/
def varShapePillowResizeArgs {Fmt : Type} (maxSrcSize maxDstSize : Size2D) (capacity : Int)
    (uniqueFormat : Fmt) : PillowResizeArgs Fmt :=
  ⟨pillowResizeSize maxSrcSize maxDstSize, capacity, uniqueFormat⟩

section VarShape

variable {Fmt : Type}

/-- What the VarShape wrappers use of an `nvcv::ImageBatchVarShape`: its capacity, an `int32_t`,
and the size and format of each of its images, of which it holds at most its capacity. -/
@[ext]
structure ImageBatch (Fmt : Type) where
  capacity : Int
  images : List (Size2D × Fmt)
  numImages_le : (List.length images : Int) ≤ capacity
  capacity_lt : capacity < 2147483648

/-- The NVCV calls of the VarShape wrappers whose code is not under `src/`: `maxSize()` and
`uniqueFormat()` of a batch, and `CreateOperator<cvcuda::PillowResize>` with the `submit` of the
operator on an input and an output batch, which may fail. -/
structure Nvcv (Fmt : Type) where
  maxSize : ImageBatch Fmt → Size2D
  uniqueFormat : ImageBatch Fmt → Fmt
  pillowResize : PillowResizeArgs Fmt → ImageBatch Fmt → ImageBatch Fmt → Except WrapperError Unit

/-- `ImageBatchVarShape::Create(b.capacity())`: an empty batch of the same capacity. -/
def ImageBatch.createLike (b : ImageBatch Fmt) : ImageBatch Fmt where
  capacity := b.capacity
  images := []
  numImages_le := by have := b.numImages_le; simp only [List.length_nil]; omega
  capacity_lt := b.capacity_lt

/-- `pushBack`: append an image, which a full batch refuses. -/
def ImageBatch.pushBack (b : ImageBatch Fmt) (image : Size2D × Fmt) :
    Except WrapperError (ImageBatch Fmt) :=
  if h : (List.length b.images : Int) < b.capacity then
    .ok ⟨b.capacity, b.images ++ [image], by
      rw [List.length_append, List.length_singleton]; omega, b.capacity_lt⟩
  else .error .batchFull

/-- `Image::Create(size, format)` (declared at `python/mod_nvcv/Image.hpp:45`, its body is NVCV's):
an image of that size and format, refused with `NVCV_ERROR_INVALID_ARGUMENT` when a side is not
positive. -/
def imageCreate (size : Size2D) (format : Fmt) : Except WrapperError (Size2D × Fmt) :=
  if 0 < size.w ∧ 0 < size.h then .ok (size, format) else .error .invalidArgument

/-- `VarShapePillowResizeInto` (`OpThreshold.hpp:129-154`): create the operator for the larger of
the two batches' largest sizes, the input's capacity and its unique format, submit it on the two
batches, and return the output batch. -/
def varShapePillowResizeInto (nvcv : Nvcv Fmt) (output input : ImageBatch Fmt) :
    Except WrapperError (ImageBatch Fmt) := do
  nvcv.pillowResize (varShapePillowResizeArgs (nvcv.maxSize input) (nvcv.maxSize output)
    input.capacity (nvcv.uniqueFormat input)) input output
  return output

/-- One pass of the loop of `VarShapePillowResize` (`OpThreshold.hpp:166-172`): an image of the
`i`-th output size in the format of the `i`-th input image. -/
def pushResized (input : ImageBatch Fmt) (outSizes : List (Int × Int)) (output : ImageBatch Fmt)
    (i : Nat) : Except WrapperError (ImageBatch Fmt) := do
  let format := (← readAt input.images i).2
  let size ← readAt outSizes i
  let image ← imageCreate ⟨size.1, size.2⟩ format
  output.pushBack image

/-- `VarShapePillowResize` (`OpThreshold.hpp:156-175`). -/
def varShapePillowResize (nvcv : Nvcv Fmt) (input : ImageBatch Fmt)
    (outSizes : List (Int × Int)) : Except WrapperError (ImageBatch Fmt) := do
  let output := input.createLike
  if toInt32 (List.length outSizes) ≠ List.length input.images then
    throw (.runtime "Invalid outSizes passed")
  let output ← (List.range (List.length input.images)).foldlM (pushResized input outSizes) output
  varShapePillowResizeInto nvcv output input

/-- The image the loop builds from an output size and an input image. -/
def resizedImage (size : Int × Int) (image : Size2D × Fmt) : Size2D × Fmt :=
  (⟨size.1, size.2⟩, image.2)

/-- An output size `Image::Create` accepts: both sides positive. -/
def SizeOk (size : Int × Int) : Prop := 0 < size.1 ∧ 0 < size.2

instance (size : Int × Int) : Decidable (SizeOk size) := inferInstanceAs (Decidable (_ ∧ _))

theorem ImageBatch.pushBack_of_lt (b : ImageBatch Fmt) (image : Size2D × Fmt)
    (h : (List.length b.images : Int) < b.capacity) :
    ∃ b' : ImageBatch Fmt, b.pushBack image = .ok b' ∧ b'.capacity = b.capacity ∧
      b'.images = b.images ++ [image] :=
  ⟨_, dif_pos h, rfl, rfl⟩

/-- A pass with both vectors long enough, an accepted size and room in the batch appends one
image. -/
theorem pushResized_of_lt (input : ImageBatch Fmt) (outSizes : List (Int × Int))
    (output : ImageBatch Fmt) (i : Nat) (hi : i < List.length input.images)
    (hs : i < List.length outSizes) (hok : SizeOk outSizes[i])
    (hroom : (List.length output.images : Int) < output.capacity) :
    ∃ b' : ImageBatch Fmt, pushResized input outSizes output i = .ok b' ∧
      b'.capacity = output.capacity ∧
      b'.images = output.images ++ [resizedImage outSizes[i] input.images[i]] := by
  have hok : 0 < outSizes[i].1 ∧ 0 < outSizes[i].2 := hok
  simp only [pushResized, readAt_of_lt hi, readAt_of_lt hs, imageCreate, if_pos hok, bind,
    Except.bind]
  exact output.pushBack_of_lt _ hroom

/-- A pass whose size `Image::Create` refuses fails with `NVCV_ERROR_INVALID_ARGUMENT`. -/
theorem pushResized_of_not_sizeOk (input : ImageBatch Fmt) (outSizes : List (Int × Int))
    (output : ImageBatch Fmt) (i : Nat) (hi : i < List.length input.images)
    (hs : i < List.length outSizes) (hbad : ¬SizeOk outSizes[i]) :
    pushResized input outSizes output i = .error .invalidArgument := by
  have hbad : ¬(0 < outSizes[i].1 ∧ 0 < outSizes[i].2) := hbad
  simp only [pushResized, readAt_of_lt hi, readAt_of_lt hs, imageCreate, if_neg hbad, bind,
    Except.bind]

/-- The loop after `k` passes whose sizes are all accepted: the first `k` output sizes in the
formats of the first `k` input images, in a batch of the input's capacity. -/
theorem pushResized_loop (input : ImageBatch Fmt) (outSizes : List (Int × Int)) {k : Nat}
    (hk : k ≤ List.length input.images) (hs : k ≤ List.length outSizes)
    (hok : ∀ s ∈ outSizes.take k, SizeOk s) :
    ∃ output : ImageBatch Fmt,
      (List.range k).foldlM (pushResized input outSizes) input.createLike = .ok output ∧
      output.capacity = input.capacity ∧
      output.images = List.zipWith resizedImage (outSizes.take k) (input.images.take k) := by
  induction k with
  | zero => exact ⟨_, rfl, rfl, by simp [ImageBatch.createLike]⟩
  | succ k ih =>
    have htake : outSizes.take (k + 1) = outSizes.take k ++ [outSizes[k]] := by
      rw [List.take_succ, List.getElem?_eq_getElem (by omega), Option.toList_some]
    rw [htake] at hok
    obtain ⟨output, hrun, hcap, himg⟩ :=
      ih (by omega) (by omega) fun s hs => hok s (List.mem_append_left _ hs)
    have hlen : List.length output.images = k := by
      simp [himg, List.length_take]; omega
    have hroom : (List.length output.images : Int) < output.capacity := by
      have := input.numImages_le; rw [hlen, hcap]; omega
    obtain ⟨b', hstep, hcap', himg'⟩ := pushResized_of_lt input outSizes output k hk hs
      (hok _ (List.mem_append_right _ (List.mem_singleton_self _))) hroom
    refine ⟨b', ?_, hcap'.trans hcap, ?_⟩
    · simp [List.range_succ, List.foldlM_append, hrun, bind, Except.bind, hstep, pure,
        Except.pure]
    · have h2 : input.images[k]? = some input.images[k] := List.getElem?_eq_getElem (by omega)
      rw [himg', himg, htake, List.take_succ, h2, Option.toList_some,
        List.zipWith_append _ _ _ _ _ (by simp; omega)]
      rfl

/-- The loop over the first `k` images fails with `NVCV_ERROR_INVALID_ARGUMENT` as soon as one
of the first `k` sizes is refused. -/
theorem pushResized_loop_error (input : ImageBatch Fmt) (outSizes : List (Int × Int)) {k : Nat}
    (hk : k ≤ List.length input.images) (hs : k ≤ List.length outSizes)
    (hbad : ∃ s ∈ outSizes.take k, ¬SizeOk s) :
    (List.range k).foldlM (pushResized input outSizes) input.createLike =
      .error .invalidArgument := by
  induction k with
  | zero => simp at hbad
  | succ k ih =>
    rw [List.range_succ, List.foldlM_append]
    by_cases hbefore : ∃ s ∈ outSizes.take k, ¬SizeOk s
    · rw [ih (by omega) (by omega) hbefore]; rfl
    · push_neg at hbefore
      obtain ⟨output, hrun, -, -⟩ := pushResized_loop input outSizes (by omega) (by omega) hbefore
      have hlast : ¬SizeOk outSizes[k] := by
        obtain ⟨s, hmem, hs'⟩ := hbad
        rw [List.take_succ, List.getElem?_eq_getElem (by omega), Option.toList_some,
          List.mem_append, List.mem_singleton] at hmem
        rcases hmem with hmem | rfl
        · exact absurd (hbefore s hmem) hs'
        · exact hs'
      simp [hrun, bind, Except.bind,
        pushResized_of_not_sizeOk input outSizes output k (by omega) (by omega) hlast]

/-- The batch the loop of `VarShapePillowResize` builds: the input's capacity, and one image per
input image, of the output size at the same index and in the input image's format. -/
def resizedBatch (input : ImageBatch Fmt) (outSizes : List (Int × Int)) : ImageBatch Fmt where
  capacity := input.capacity
  images := List.zipWith resizedImage outSizes input.images
  numImages_le := by
    have := input.numImages_le; rw [List.length_zipWith]; omega
  capacity_lt := input.capacity_lt

/-- `static_cast<int32_t>` of a count equals a count an `int32_t` holds exactly when the two agree
modulo `2^32`. -/
theorem toInt32_natCast_eq_iff {n m : Nat} (hm : m < 2147483648) :
    toInt32 n = m ↔ n % 4294967296 = m := by
  unfold toInt32; omega

/-- With the counts in agreement and every size accepted, the loop builds `resizedBatch`. -/
theorem pushResized_loop_eq_resizedBatch (input : ImageBatch Fmt) (outSizes : List (Int × Int))
    (hc : List.length outSizes % 4294967296 = List.length input.images)
    (hok : ∀ s ∈ outSizes.take (List.length input.images), SizeOk s) :
    (List.range (List.length input.images)).foldlM (pushResized input outSizes)
      input.createLike = .ok (resizedBatch input outSizes) := by
  have hle : List.length input.images ≤ List.length outSizes := hc ▸ Nat.mod_le _ _
  obtain ⟨output, hrun, hcap, himg⟩ := pushResized_loop input outSizes (Nat.le_refl _) hle hok
  rw [hrun]
  congr 1
  refine ImageBatch.ext hcap ?_
  show _ = List.zipWith resizedImage outSizes input.images
  rw [himg, List.take_length, List.zipWith_eq_zipWith_take_min outSizes, Nat.min_eq_right hle,
    List.take_length]

/-- A size with a side of 0 is refused before the operator is created. -/
example : varShapePillowResize (⟨fun _ => ⟨0, 0⟩, fun _ => (), fun _ _ _ => .ok ()⟩ : Nvcv Unit)
    ⟨2, [(⟨4, 4⟩, ())], by decide, by decide⟩ [(0, 3)] = .error .invalidArgument := rfl

end VarShape

end CvCuda.Python
