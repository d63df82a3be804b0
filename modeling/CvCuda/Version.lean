import Mathlib.Tactic.Common

/-!
# Version identifiers of `VersionDef.h`

Reference: `src/nvcv_types/include/nvcv/VersionDef.h`.

`NVCV_MAKE_VERSION4` packs `major.minor.patch.tweak` into one `uint32_t` as
`major*1000000 + minor*10000 + patch*100 + tweak`, computed in `int`. The variadic
`NVCV_MAKE_VERSION` picks its 1-to-4-argument form by the position trick of
`NVCV_DETAIL_GET_MACRO`, and the `NVCV_VERSION_API_*` tests compare such numbers with the
selected API version.

On the tuples the encoding is meant for (`Version`: lower components in their 100-wide slots, the
whole value inside `int`) the encoding is exact (`Version.toNat_num`), hence injective and
order-preserving for the lexicographic order (`Version.num_lt_iff`), and the API tests agree with
the lexicographic order on `(major, minor)` (`Version.atLeast_iff`, `Version.atMost_iff`).

The macros are modelled in C expression context, where `(uint32_t)` is a conversion modulo
`2^32`.
-/

namespace CvCuda.VersionDef

/-- The `(uint32_t)` conversion of an `int` value: reduction modulo `2^32`. -/
def toUInt32 (x : Int) : UInt32 := UInt32.ofNat (x % 4294967296).toNat

/-- `NVCV_MAKE_VERSION4(major, minor, patch, tweak)` (`VersionDef.h:47-48`). -/
def nvcvMakeVersion4 (major minor patch tweak : Int) : UInt32 :=
  toUInt32 (major * 1000000 + minor * 10000 + patch * 100 + tweak)

/-- `NVCV_MAKE_VERSION3(major, minor, patch)` (`VersionDef.h:57-58`). -/
def nvcvMakeVersion3 (major minor patch : Int) : UInt32 := nvcvMakeVersion4 major minor patch 0

/-- `NVCV_MAKE_VERSION2(major, minor)` (`VersionDef.h:67-68`). -/
def nvcvMakeVersion2 (major minor : Int) : UInt32 := nvcvMakeVersion4 major minor 0 0

/-- `NVCV_MAKE_VERSION1(major)` (`VersionDef.h:77-78`). -/
def nvcvMakeVersion1 (major : Int) : UInt32 := nvcvMakeVersion4 major 0 0 0

/-! ## The variadic `NVCV_MAKE_VERSION`

`NVCV_MAKE_VERSION(...)` passes its arguments followed by the four macro names to
`NVCV_DETAIL_GET_MACRO(_1,_2,_3,_4,NAME,...)`, whose fifth argument is the name of the form with
as many parameters as the caller gave. -/

/-- An argument of `NVCV_DETAIL_GET_MACRO`: a caller's argument, or the name
`NVCV_MAKE_VERSIONn` that `NVCV_MAKE_VERSION` appends. -/
inductive Arg
  | value (v : Int)
  | makeVersion (n : Nat)
  deriving DecidableEq

/-- `NVCV_DETAIL_GET_MACRO(_1,_2,_3,_4,NAME,...)` (`VersionDef.h:99`): the fifth argument. -/
def nvcvDetailGetMacro (args : List Arg) : Option Arg := args.get? 4

/-- The expansion of `NVCV_MAKE_VERSIONn(args)`; `none` where the preprocessor rejects the
number of arguments. -/
def applyMakeVersion : Nat → List Int → Option UInt32
  | 4, [major, minor, patch, tweak] => some (nvcvMakeVersion4 major minor patch tweak)
  | 3, [major, minor, patch] => some (nvcvMakeVersion3 major minor patch)
  | 2, [major, minor] => some (nvcvMakeVersion2 major minor)
  | 1, [major] => some (nvcvMakeVersion1 major)
  | _, _ => none

/-- `NVCV_MAKE_VERSION(...)` (`VersionDef.h:100-101`); `none` where the expansion does not
compile. -/
def nvcvMakeVersion (args : List Int) : Option UInt32 :=
  match nvcvDetailGetMacro (args.map .value ++
      [.makeVersion 4, .makeVersion 3, .makeVersion 2, .makeVersion 1]) with
  | some (.makeVersion n) => applyMakeVersion n args
  | _ => none

theorem nvcvMakeVersion_one (major : Int) :
    nvcvMakeVersion [major] = some (nvcvMakeVersion4 major 0 0 0) := rfl

theorem nvcvMakeVersion_two (major minor : Int) :
    nvcvMakeVersion [major, minor] = some (nvcvMakeVersion4 major minor 0 0) := rfl

theorem nvcvMakeVersion_three (major minor patch : Int) :
    nvcvMakeVersion [major, minor, patch] = some (nvcvMakeVersion4 major minor patch 0) := rfl

theorem nvcvMakeVersion_four (major minor patch tweak : Int) :
    nvcvMakeVersion [major, minor, patch, tweak] =
      some (nvcvMakeVersion4 major minor patch tweak) := rfl

/-- Five or more arguments select a caller's argument as the macro name, which does not expand. -/
theorem nvcvMakeVersion_of_five_le {args : List Int} (h : 5 ≤ args.length) :
    nvcvMakeVersion args = none := by
  obtain _ | ⟨a, _ | ⟨b, _ | ⟨c, _ | ⟨d, _ | ⟨e, rest⟩⟩⟩⟩⟩ := args <;>
    simp_all [nvcvMakeVersion, nvcvDetailGetMacro]

/-! ## The API version tests

`NVCV_VERSION_API` itself, the `#if` range check on a user's selection, is modelled on the
preprocessor's tokens in `CvCuda/VersionIf.lean`; here the tests compare with a selected
version's number. -/

/-- `NVCV_VERSION_API_IS(major,minor)` (`VersionDef.h:169-170`) for the selected `api`. -/
def nvcvVersionApiIs (api : UInt32) (major minor : Int) : Bool :=
  nvcvMakeVersion2 major minor == api

/-- `NVCV_VERSION_API_AT_LEAST(major,minor)` (`VersionDef.h:176-177`). -/
def nvcvVersionApiAtLeast (api : UInt32) (major minor : Int) : Bool :=
  decide (nvcvMakeVersion2 major minor ≤ api)

/-- `NVCV_VERSION_API_AT_MOST(major,minor)` (`VersionDef.h:183-184`). -/
def nvcvVersionApiAtMost (api : UInt32) (major minor : Int) : Bool :=
  decide (nvcvMakeVersion2 major minor ≥ api)

/-- `NVCV_VERSION_API_IN_RANGE(min_major,min_minor,max_major,max_minor)`
(`VersionDef.h:191-192`). -/
def nvcvVersionApiInRange (api : UInt32) (minMajor minMinor maxMajor maxMinor : Int) : Bool :=
  nvcvVersionApiAtLeast api minMajor minMinor && nvcvVersionApiAtMost api maxMajor maxMinor

/-! ## Exactness of the encoding -/

/-- A version tuple the encoding is meant for: minor, patch and tweak in `0..99`, and a
non-negative major small enough that every version with it fits in a signed 32-bit `int`. -/
@[ext]
structure Version where
  major : Int
  minor : Int
  patch : Int
  tweak : Int
  major_nonneg : 0 ≤ major
  major_fits : major * 1000000 + 999999 ≤ 2147483647
  minor_nonneg : 0 ≤ minor
  minor_le : minor ≤ 99
  patch_nonneg : 0 ≤ patch
  patch_le : patch ≤ 99
  tweak_nonneg : 0 ≤ tweak
  tweak_le : tweak ≤ 99

namespace Version

/-- The number `NVCV_MAKE_VERSION4` makes of `v`. -/
def num (v : Version) : UInt32 := nvcvMakeVersion4 v.major v.minor v.patch v.tweak

/-- Lexicographic order on version tuples. -/
def Precedes (v w : Version) : Prop :=
  v.major < w.major ∨ v.major = w.major ∧ (v.minor < w.minor ∨ v.minor = w.minor ∧
    (v.patch < w.patch ∨ v.patch = w.patch ∧ v.tweak < w.tweak))

instance (v w : Version) : Decidable (Precedes v w) :=
  inferInstanceAs (Decidable (_ ∨ _))

/-- On `Version`, the `int` arithmetic of the macro neither overflows nor goes negative, so the
`uint32_t` it yields is the exact sum. -/
theorem toNat_num (v : Version) :
    ((v.num.toNat : Nat) : Int) = v.major * 1000000 + v.minor * 10000 + v.patch * 100 + v.tweak := by
  have := v.major_nonneg; have := v.major_fits; have := v.minor_nonneg; have := v.minor_le
  have := v.patch_nonneg; have := v.patch_le; have := v.tweak_nonneg; have := v.tweak_le
  have hmod : (v.major * 1000000 + v.minor * 10000 + v.patch * 100 + v.tweak) % 4294967296 =
      v.major * 1000000 + v.minor * 10000 + v.patch * 100 + v.tweak :=
    Int.emod_eq_of_lt (by omega) (by omega)
  rw [num, nvcvMakeVersion4, toUInt32, hmod, UInt32.toNat_ofNat_of_lt (by simp [UInt32.size]; omega)]
  omega

theorem num_lt_num_iff (v w : Version) : v.num < w.num ↔ v.num.toNat < w.num.toNat := by
  rw [UInt32.lt_def, BitVec.lt_def]; rfl

theorem num_le_num_iff (v w : Version) : v.num ≤ w.num ↔ v.num.toNat ≤ w.num.toNat := by
  rw [UInt32.le_def, BitVec.le_def]; rfl

/-- The encoding is order-preserving and reflecting: numeric order is lexicographic order. -/
theorem num_lt_iff (v w : Version) : v.num < w.num ↔ v.Precedes w := by
  have hv := v.toNat_num; have hw := w.toNat_num
  have := v.minor_nonneg; have := v.minor_le; have := v.patch_nonneg; have := v.patch_le
  have := v.tweak_nonneg; have := v.tweak_le; have := w.minor_nonneg; have := w.minor_le
  have := w.patch_nonneg; have := w.patch_le; have := w.tweak_nonneg; have := w.tweak_le
  rw [num_lt_num_iff, Precedes]
  omega

/-- The encoding is injective. -/
theorem num_eq_iff (v w : Version) : v.num = w.num ↔ v = w := by
  refine ⟨fun h => ?_, congrArg num⟩
  have hvw : ¬ v.num < w.num := by rw [h]; exact UInt32.lt_irrefl _
  have hwv : ¬ w.num < v.num := by rw [h]; exact UInt32.lt_irrefl _
  rw [num_lt_iff, Precedes] at hvw hwv
  ext <;> omega

/-- The numeric `≤` of two versions is `Precedes` or equality. -/
theorem num_le_iff (v w : Version) : v.num ≤ w.num ↔ v.Precedes w ∨ v = w := by
  have hinj : v.num = w.num ↔ v.num.toNat = w.num.toNat := ⟨congrArg _, UInt32.toNat.inj⟩
  rw [← num_lt_iff, ← num_eq_iff, num_le_num_iff, num_lt_num_iff, hinj]
  omega

/-- For a `major.minor` version, `NVCV_MAKE_VERSION(major, minor)` is its number. -/
theorem nvcvMakeVersion2_eq_num (v : Version) (hp : v.patch = 0) (ht : v.tweak = 0) :
    nvcvMakeVersion2 v.major v.minor = v.num := by
  simp [num, nvcvMakeVersion2, hp, ht]

/-! ## The API tests -/

section ApiTests

variable (a v w : Version) (hvp : v.patch = 0) (hvt : v.tweak = 0) (hwp : w.patch = 0)
  (hwt : w.tweak = 0)

include hvp hvt in
theorem atLeast_iff : nvcvVersionApiAtLeast a.num v.major v.minor = true ↔ v.Precedes a ∨ v = a := by
  simp [nvcvVersionApiAtLeast, nvcvMakeVersion2_eq_num v hvp hvt, num_le_iff]

include hvp hvt in
theorem atMost_iff : nvcvVersionApiAtMost a.num v.major v.minor = true ↔ a.Precedes v ∨ a = v := by
  simp [nvcvVersionApiAtMost, nvcvMakeVersion2_eq_num v hvp hvt, num_le_iff]

include hvp hvt in
theorem is_iff : nvcvVersionApiIs a.num v.major v.minor = true ↔ v = a := by
  simp [nvcvVersionApiIs, nvcvMakeVersion2_eq_num v hvp hvt, num_eq_iff]

include hvp hvt hwp hwt in
theorem inRange_iff : nvcvVersionApiInRange a.num v.major v.minor w.major w.minor = true ↔
    (v.Precedes a ∨ v = a) ∧ (a.Precedes w ∨ a = w) := by
  rw [nvcvVersionApiInRange, Bool.and_eq_true, atLeast_iff a v hvp hvt, atMost_iff a w hwp hwt]

end ApiTests

end Version

/-- The version encoding is exact on `Version`: order-preserving and injective for the
lexicographic order, the short forms of `NVCV_MAKE_VERSION` pad with zeros, and every
`NVCV_VERSION_API_*` test against a selected `major.minor` API version agrees with the
lexicographic comparison of `(major, minor)` pairs. -/
theorem nvcvMakeVersion_lex_encoding :
    (∀ v w : Version, v.num < w.num ↔ v.Precedes w) ∧
    (∀ v w : Version, v.num = w.num ↔ v = w) ∧
    (∀ major minor patch : Int,
      nvcvMakeVersion [major] = some (nvcvMakeVersion4 major 0 0 0) ∧
      nvcvMakeVersion [major, minor] = some (nvcvMakeVersion4 major minor 0 0) ∧
      nvcvMakeVersion [major, minor, patch] = some (nvcvMakeVersion4 major minor patch 0)) ∧
    (∀ a v w : Version, a.patch = 0 → a.tweak = 0 → v.patch = 0 → v.tweak = 0 →
      w.patch = 0 → w.tweak = 0 →
      (nvcvVersionApiAtLeast a.num v.major v.minor = true ↔ v.Precedes a ∨ v = a) ∧
      (nvcvVersionApiAtMost a.num v.major v.minor = true ↔ a.Precedes v ∨ a = v) ∧
      (nvcvVersionApiIs a.num v.major v.minor = true ↔ v = a) ∧
      (nvcvVersionApiInRange a.num v.major v.minor w.major w.minor = true ↔
        (v.Precedes a ∨ v = a) ∧ (a.Precedes w ∨ a = w))) :=
  ⟨Version.num_lt_iff, Version.num_eq_iff,
    fun major minor patch => ⟨nvcvMakeVersion_one major, nvcvMakeVersion_two major minor,
      nvcvMakeVersion_three major minor patch⟩,
    fun a v w _ _ hvp hvt hwp hwt =>
      ⟨Version.atLeast_iff a v hvp hvt, Version.atMost_iff a v hvp hvt, Version.is_iff a v hvp hvt,
        Version.inRange_iff a v w hvp hvt hwp hwt⟩⟩

end CvCuda.VersionDef
