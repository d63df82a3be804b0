import CvCuda.Compat.Libc

/-!
# `Compat_getentropy`

Reference: `src/util/Compat.c.in:329-376`.

`Compat_getentropy(buffer, length)` refuses more than 256 bytes, then fills `[buffer,
buffer + length)` by calling `getrandom` on the part not yet filled until it is full. A call
interrupted by a signal is made again; any other failure, or a call that delivers no byte, ends
the run with `-1`.

`getrandom` is the environment: a `Getrandom` answers each call of a run, indexed by its position
in the run. The loop is fuel-bounded. `getentropyLoop_isSome` shows that enough fuel yields an
outcome once no call after some index is interrupted, and `getentropyLoop_fillSpec` that every
outcome satisfies `FillSpec`: each call asks for exactly the bytes from the current position to
the end, the successful calls tile the buffer in order, a call that stops short of the end is
followed by another, the value returned says whether they covered all of it, and a `-1` comes only
from a last call that delivered no byte or failed other than by an interruption. Both follow from `getentropyLoop_succ_cases`, which lists what one iteration
can do.
-/

namespace CvCuda.Compat

/-- A `getrandom(buffer, length, flags)` call. -/
structure Request where
  buffer : Nat
  length : Nat
  flags : UInt32
  deriving DecidableEq, Repr

/-- A behaviour of `getrandom`: the answer to the `i`-th call of a run, which made request
`req`. -/
def Getrandom := Nat → Request → SysResult

/-- What `Compat_getentropy` returned, the `errno` it left, and the `getrandom` calls it made, in
order, with their answers. -/
structure EntropyOutcome where
  ret : Int
  errno : Int
  calls : List (Request × SysResult)
  deriving DecidableEq, Repr

/-- `o` preceded by the call `req`, answered with `r`. -/
def EntropyOutcome.record (req : Request) (r : SysResult) (o : EntropyOutcome) :
    EntropyOutcome :=
  { o with calls := (req, r) :: o.calls }

@[simp] theorem EntropyOutcome.record_ret (req : Request) (r : SysResult) (o : EntropyOutcome) :
    (o.record req r).ret = o.ret := rfl

@[simp] theorem EntropyOutcome.record_errno (req : Request) (r : SysResult) (o : EntropyOutcome) :
    (o.record req r).errno = o.errno := rfl

@[simp] theorem EntropyOutcome.record_calls (req : Request) (r : SysResult) (o : EntropyOutcome) :
    (o.record req r).calls = (req, r) :: o.calls := rfl

section Loop

variable (getrandom : Getrandom) (endBuffer : Nat)

/-- The `while(buffer < endBuffer)` loop of `Compat_getentropy` (`Compat.c.in:342-370`), from the
`i`-th `getrandom` call on, with `fuel` iterations left. -/
def getentropyLoop : (fuel buffer i : Nat) → (errno : Int) → Option EntropyOutcome
  | 0, _, _, _ => none
  | fuel + 1, buffer, i, errno =>
    if buffer < endBuffer then
      let req : Request := ⟨buffer, endBuffer - buffer, 0⟩
      match getrandom i req with
      | .err e =>
        if e = EINTR then (getentropyLoop fuel buffer (i + 1) e).map (.record req (.err e))
        else some ⟨-1, e, [(req, .err e)]⟩
      | .ok n =>
        if n = 0 then some ⟨-1, EIO, [(req, .ok 0)]⟩
        else (getentropyLoop fuel (buffer + n) (i + 1) errno).map (.record req (.ok n))
    else some ⟨0, errno, []⟩

end Loop

/-- `Compat_getentropy(buffer, length)` (`Compat.c.in:329-376`), entered with `errno` and run
for at most `fuel` iterations of its loop. -/
def compatGetentropy (getrandom : Getrandom) (fuel buffer length : Nat) (errno : Int) :
    Option EntropyOutcome :=
  if length > 256 then some ⟨-1, EIO, []⟩
  else getentropyLoop getrandom (buffer + length) fuel buffer 0 errno

/-! ## One iteration -/

section Step

variable {getrandom : Getrandom} {endBuffer fuel buffer i : Nat} {errno : Int}

theorem getentropyLoop_full (h : endBuffer ≤ buffer) :
    getentropyLoop getrandom endBuffer (fuel + 1) buffer i errno = some ⟨0, errno, []⟩ := by
  simp [getentropyLoop, Nat.not_lt.mpr h]

theorem getentropyLoop_intr (hlt : buffer < endBuffer)
    (hg : getrandom i ⟨buffer, endBuffer - buffer, 0⟩ = .err EINTR) :
    getentropyLoop getrandom endBuffer (fuel + 1) buffer i errno =
      (getentropyLoop getrandom endBuffer fuel buffer (i + 1) EINTR).map
        (.record ⟨buffer, endBuffer - buffer, 0⟩ (.err EINTR)) := by
  simp [getentropyLoop, hlt, hg]

theorem getentropyLoop_bytes (hlt : buffer < endBuffer) {n : Nat} (hn : 0 < n)
    (hg : getrandom i ⟨buffer, endBuffer - buffer, 0⟩ = .ok n) :
    getentropyLoop getrandom endBuffer (fuel + 1) buffer i errno =
      (getentropyLoop getrandom endBuffer fuel (buffer + n) (i + 1) errno).map
        (.record ⟨buffer, endBuffer - buffer, 0⟩ (.ok n)) := by
  simp [getentropyLoop, hlt, hg, Nat.pos_iff_ne_zero.mp hn]

theorem getentropyLoop_zero (hlt : buffer < endBuffer)
    (hg : getrandom i ⟨buffer, endBuffer - buffer, 0⟩ = .ok 0) :
    getentropyLoop getrandom endBuffer (fuel + 1) buffer i errno =
      some ⟨-1, EIO, [(⟨buffer, endBuffer - buffer, 0⟩, .ok 0)]⟩ := by
  simp [getentropyLoop, hlt, hg]

theorem getentropyLoop_error (hlt : buffer < endBuffer) {e : Int} (he : e ≠ EINTR)
    (hg : getrandom i ⟨buffer, endBuffer - buffer, 0⟩ = .err e) :
    getentropyLoop getrandom endBuffer (fuel + 1) buffer i errno =
      some ⟨-1, e, [(⟨buffer, endBuffer - buffer, 0⟩, .err e)]⟩ := by
  simp [getentropyLoop, hlt, hg, he]

/-- What one iteration of the loop can do: stop on a full buffer, retry an interrupted call,
advance past the bytes a call delivered, or stop on a call that delivered none or failed. -/
theorem getentropyLoop_succ_cases {o : EntropyOutcome}
    (h : getentropyLoop getrandom endBuffer (fuel + 1) buffer i errno = some o) :
    (endBuffer ≤ buffer ∧ o = ⟨0, errno, []⟩) ∨
    (buffer < endBuffer ∧ getrandom i ⟨buffer, endBuffer - buffer, 0⟩ = .err EINTR ∧
      ∃ o', getentropyLoop getrandom endBuffer fuel buffer (i + 1) EINTR = some o' ∧
        o = o'.record ⟨buffer, endBuffer - buffer, 0⟩ (.err EINTR)) ∨
    (buffer < endBuffer ∧ ∃ n, 0 < n ∧ getrandom i ⟨buffer, endBuffer - buffer, 0⟩ = .ok n ∧
      ∃ o', getentropyLoop getrandom endBuffer fuel (buffer + n) (i + 1) errno = some o' ∧
        o = o'.record ⟨buffer, endBuffer - buffer, 0⟩ (.ok n)) ∨
    (buffer < endBuffer ∧ getrandom i ⟨buffer, endBuffer - buffer, 0⟩ = .ok 0 ∧
      o = ⟨-1, EIO, [(⟨buffer, endBuffer - buffer, 0⟩, .ok 0)]⟩) ∨
    (buffer < endBuffer ∧ ∃ e, e ≠ EINTR ∧ getrandom i ⟨buffer, endBuffer - buffer, 0⟩ = .err e ∧
      o = ⟨-1, e, [(⟨buffer, endBuffer - buffer, 0⟩, .err e)]⟩) := by
  rcases Nat.lt_or_ge buffer endBuffer with hlt | hle
  · cases hg : getrandom i ⟨buffer, endBuffer - buffer, 0⟩ with
    | err e =>
      by_cases he : e = EINTR
      · subst he
        rw [getentropyLoop_intr hlt hg] at h
        obtain ⟨o', ho', rfl⟩ := Option.map_eq_some'.mp h
        exact .inr (.inl ⟨hlt, rfl, o', ho', rfl⟩)
      · rw [getentropyLoop_error hlt he hg] at h
        exact .inr (.inr (.inr (.inr ⟨hlt, e, he, rfl, (Option.some.inj h).symm⟩)))
    | ok n =>
      rcases Nat.eq_zero_or_pos n with rfl | hn
      · rw [getentropyLoop_zero hlt hg] at h
        exact .inr (.inr (.inr (.inl ⟨hlt, rfl, (Option.some.inj h).symm⟩)))
      · rw [getentropyLoop_bytes hlt hn hg] at h
        obtain ⟨o', ho', rfl⟩ := Option.map_eq_some'.mp h
        exact .inr (.inr (.inl ⟨hlt, n, hn, rfl, o', ho', rfl⟩))
  · rw [getentropyLoop_full hle] at h
    exact .inl ⟨hle, (Option.some.inj h).symm⟩

/-- More fuel does not change an outcome. -/
theorem getentropyLoop_succ_of_eq_some {o : EntropyOutcome}
    (h : getentropyLoop getrandom endBuffer fuel buffer i errno = some o) :
    getentropyLoop getrandom endBuffer (fuel + 1) buffer i errno = some o := by
  induction fuel generalizing buffer i errno o with
  | zero => simp [getentropyLoop] at h
  | succ fuel ih =>
    rcases getentropyLoop_succ_cases h with
      ⟨hle, rfl⟩ | ⟨hlt, hg, o', ho', rfl⟩ | ⟨hlt, n, hn, hg, o', ho', rfl⟩ | ⟨hlt, hg, rfl⟩ |
        ⟨hlt, e, he, hg, rfl⟩
    · exact getentropyLoop_full hle
    · rw [getentropyLoop_intr hlt hg, ih ho']; rfl
    · rw [getentropyLoop_bytes hlt hn hg, ih ho']; rfl
    · exact getentropyLoop_zero hlt hg
    · exact getentropyLoop_error hlt he hg

theorem getentropyLoop_mono {fuel' : Nat} {o : EntropyOutcome}
    (h : getentropyLoop getrandom endBuffer fuel buffer i errno = some o) (hle : fuel ≤ fuel') :
    getentropyLoop getrandom endBuffer fuel' buffer i errno = some o := by
  induction hle with
  | refl => exact h
  | step _ ih => exact getentropyLoop_succ_of_eq_some ih

/-- Once no call from index `N` on is interrupted, the loop ends within `N - i` retries plus one
iteration per byte left and a last one. -/
theorem getentropyLoop_isSome {N : Nat} (hintr : ∀ i, N ≤ i → ∀ req, getrandom i req ≠ .err EINTR)
    (hfuel : (N - i) + (endBuffer - buffer) < fuel) :
    ∃ o, getentropyLoop getrandom endBuffer fuel buffer i errno = some o := by
  induction fuel generalizing buffer i errno with
  | zero => omega
  | succ fuel ih =>
    rcases Nat.lt_or_ge buffer endBuffer with hlt | hle
    · cases hg : getrandom i ⟨buffer, endBuffer - buffer, 0⟩ with
      | err e =>
        by_cases he : e = EINTR
        · subst he
          have hi : i < N := Nat.lt_of_not_le fun hi => hintr i hi _ hg
          obtain ⟨o, ho⟩ : ∃ o, getentropyLoop getrandom endBuffer fuel buffer (i + 1) EINTR = some o :=
            ih (by omega)
          exact ⟨_, by rw [getentropyLoop_intr hlt hg, ho]; rfl⟩
        · exact ⟨_, getentropyLoop_error hlt he hg⟩
      | ok n =>
        rcases Nat.eq_zero_or_pos n with rfl | hn
        · exact ⟨_, getentropyLoop_zero hlt hg⟩
        · obtain ⟨o, ho⟩ : ∃ o, getentropyLoop getrandom endBuffer fuel (buffer + n) (i + 1) errno = some o :=
            ih (by omega)
          exact ⟨_, by rw [getentropyLoop_bytes hlt hn hg, ho]; rfl⟩
    · exact ⟨_, getentropyLoop_full hle⟩

end Step

/-! ## What a run does -/

/-- The bytes the successful calls of a trace delivered. -/
def delivered : List (Request × SysResult) → Nat
  | [] => 0
  | (_, .ok n) :: cs => n + delivered cs
  | (_, .err _) :: cs => delivered cs

/-- A call of `x :: l` is `x` itself or a call of `l`. -/
theorem cons_eq_append_cons {α : Type} {x c : α} {l pre post : List α}
    (h : x :: l = pre ++ c :: post) :
    (pre = [] ∧ c = x ∧ post = l) ∨ ∃ pre', pre = x :: pre' ∧ l = pre' ++ c :: post := by
  rcases List.cons_eq_append_iff.mp h with ⟨rfl, hc⟩ | ⟨pre', rfl, hl⟩
  · simp only [List.nil_append, List.cons.injEq] at hc
    exact .inl ⟨rfl, hc.1, hc.2⟩
  · exact .inr ⟨pre', rfl, hl⟩

/-- What a run of the loop over `[start, endBuffer)` that returned `o` satisfies: every call asks
for exactly the bytes from the position the calls before it reached to the end, and some are
left; an interrupted call, and a call that delivered bytes short of the end, are followed by
another; a call that delivers no byte, or that fails otherwise, is the last one, and the run
returns `-1` with `EIO`, or with that call's `errno`; the run returns `0` exactly when the calls
delivered the whole range, and `-1` otherwise, and a `-1` comes only from such a last call; a
non-empty range gets at least one call. -/
structure FillSpec (start endBuffer : Nat) (o : EntropyOutcome) : Prop where
  request : ∀ pre c post, o.calls = pre ++ c :: post →
    start + delivered pre < endBuffer ∧
      c.1 = ⟨start + delivered pre, endBuffer - (start + delivered pre), 0⟩
  retried : ∀ pre c post, o.calls = pre ++ c :: post → c.2 = .err EINTR → post ≠ []
  continued : ∀ pre c post n, o.calls = pre ++ c :: post → c.2 = .ok n → 0 < n →
    start + delivered pre + n < endBuffer → post ≠ []
  zero_stops : ∀ pre c post, o.calls = pre ++ c :: post → c.2 = .ok 0 →
    post = [] ∧ o.ret = -1 ∧ o.errno = EIO
  error_stops : ∀ pre c post e, o.calls = pre ++ c :: post → c.2 = .err e → e ≠ EINTR →
    post = [] ∧ o.ret = -1 ∧ o.errno = e
  ret_zero_iff : o.ret = 0 ↔ delivered o.calls = endBuffer - start
  ret_cases : o.ret = 0 ∨ o.ret = -1
  fail_last : o.ret = -1 → ∃ pre c, o.calls = pre ++ [c] ∧
    (c.2 = .ok 0 ∧ o.errno = EIO ∨ ∃ e, e ≠ EINTR ∧ c.2 = .err e ∧ o.errno = e)
  calls_ne_nil : start < endBuffer → o.calls ≠ []

namespace FillSpec

variable {start endBuffer : Nat}

/-- The run that finds the range already full. -/
theorem full {errno : Int} (h : endBuffer ≤ start) : FillSpec start endBuffer ⟨0, errno, []⟩ where
  request _ _ _ h := by simp at h
  retried _ _ _ h := by simp at h
  continued _ _ _ _ h := by simp at h
  zero_stops _ _ _ h := by simp at h
  error_stops _ _ _ _ h := by simp at h
  ret_zero_iff := by simp [delivered]; omega
  ret_cases := .inl rfl
  fail_last h := by simp at h
  calls_ne_nil h' := absurd h' (by omega)

/-- The run whose first call delivers no byte, or fails other than by an interruption. -/
theorem last (hlt : start < endBuffer) {r : SysResult} {errno : Int}
    (hr : r = .ok 0 ∧ errno = EIO ∨ ∃ e, e ≠ EINTR ∧ r = .err e ∧ errno = e) :
    FillSpec start endBuffer ⟨-1, errno, [(⟨start, endBuffer - start, 0⟩, r)]⟩ where
  request pre c post h := by
    rcases cons_eq_append_cons h with ⟨rfl, rfl, -⟩ | ⟨_, -, hl⟩
    · simpa [delivered] using hlt
    · simp at hl
  retried pre c post h hc := by
    rcases cons_eq_append_cons h with ⟨-, rfl, -⟩ | ⟨_, -, hl⟩
    · rcases hr with ⟨rfl, -⟩ | ⟨e, he, rfl, -⟩ <;> simp_all
    · simp at hl
  continued pre c post n h hc hn _ := by
    rcases cons_eq_append_cons h with ⟨-, rfl, -⟩ | ⟨_, -, hl⟩
    · rcases hr with ⟨rfl, -⟩ | ⟨e, -, rfl, -⟩ <;> simp_all
    · simp at hl
  zero_stops pre c post h hc := by
    rcases cons_eq_append_cons h with ⟨-, rfl, rfl⟩ | ⟨_, -, hl⟩
    · rcases hr with ⟨-, rfl⟩ | ⟨e, -, rfl, -⟩ <;> simp_all
    · simp at hl
  error_stops pre c post e h hc he := by
    rcases cons_eq_append_cons h with ⟨-, rfl, rfl⟩ | ⟨_, -, hl⟩
    · rcases hr with ⟨rfl, -⟩ | ⟨e', -, rfl, rfl⟩ <;> simp_all
    · simp at hl
  ret_zero_iff := by
    rcases hr with ⟨rfl, -⟩ | ⟨e, -, rfl, -⟩ <;> simp [delivered] <;> omega
  ret_cases := .inr rfl
  fail_last _ := ⟨[], _, rfl, hr⟩
  calls_ne_nil _ := List.cons_ne_nil _ _

/-- A run that starts with an interrupted call and then fills the same range. -/
theorem intr (hlt : start < endBuffer) {o : EntropyOutcome} (ho : FillSpec start endBuffer o) :
    FillSpec start endBuffer (o.record ⟨start, endBuffer - start, 0⟩ (.err EINTR)) where
  request pre c post h := by
    rcases cons_eq_append_cons h with ⟨rfl, rfl, -⟩ | ⟨pre, rfl, hl⟩
    · simpa [delivered] using hlt
    · simpa [delivered] using ho.request pre c post hl
  retried pre c post h hc := by
    rcases cons_eq_append_cons h with ⟨-, -, rfl⟩ | ⟨pre, -, hl⟩
    · exact ho.calls_ne_nil hlt
    · exact ho.retried pre c post hl hc
  continued pre c post n h hc hn hend := by
    rcases cons_eq_append_cons h with ⟨-, rfl, -⟩ | ⟨pre, rfl, hl⟩
    · simp at hc
    · exact ho.continued pre c post n hl hc hn (by simpa [delivered] using hend)
  zero_stops pre c post h hc := by
    rcases cons_eq_append_cons h with ⟨-, rfl, -⟩ | ⟨pre, -, hl⟩
    · simp at hc
    · simpa using ho.zero_stops pre c post hl hc
  error_stops pre c post e h hc he := by
    rcases cons_eq_append_cons h with ⟨-, rfl, -⟩ | ⟨pre, -, hl⟩
    · simp at hc; exact absurd hc.symm he
    · simpa using ho.error_stops pre c post e hl hc he
  ret_zero_iff := by simpa [delivered] using ho.ret_zero_iff
  ret_cases := by simpa using ho.ret_cases
  fail_last h :=
    let ⟨pre, c, hc, hr⟩ := ho.fail_last h
    ⟨_ :: pre, c, congrArg (List.cons _) hc, hr⟩
  calls_ne_nil _ := List.cons_ne_nil _ _

/-- A run whose first call delivers `n` bytes, followed by a run that fills the rest. -/
theorem bytes (hlt : start < endBuffer) {n : Nat} (hn : 0 < n) (hle : n ≤ endBuffer - start)
    {o : EntropyOutcome} (ho : FillSpec (start + n) endBuffer o) :
    FillSpec start endBuffer (o.record ⟨start, endBuffer - start, 0⟩ (.ok n)) where
  request pre c post h := by
    rcases cons_eq_append_cons h with ⟨rfl, rfl, -⟩ | ⟨pre, rfl, hl⟩
    · simpa [delivered] using hlt
    · simpa [delivered, Nat.add_assoc] using ho.request pre c post hl
  retried pre c post h hc := by
    rcases cons_eq_append_cons h with ⟨-, rfl, -⟩ | ⟨pre, -, hl⟩
    · simp at hc
    · exact ho.retried pre c post hl hc
  continued pre c post m h hc hm hend := by
    rcases cons_eq_append_cons h with ⟨rfl, rfl, rfl⟩ | ⟨pre, rfl, hl⟩
    · simp only [SysResult.ok.injEq] at hc
      exact ho.calls_ne_nil (by simpa [delivered, ← hc] using hend)
    · exact ho.continued pre c post m hl hc hm (by simpa [delivered, Nat.add_assoc] using hend)
  zero_stops pre c post h hc := by
    rcases cons_eq_append_cons h with ⟨-, rfl, -⟩ | ⟨pre, -, hl⟩
    · simp at hc; omega
    · simpa using ho.zero_stops pre c post hl hc
  error_stops pre c post e h hc he := by
    rcases cons_eq_append_cons h with ⟨-, rfl, -⟩ | ⟨pre, -, hl⟩
    · simp at hc
    · simpa using ho.error_stops pre c post e hl hc he
  ret_zero_iff := by
    have := ho.ret_zero_iff
    simp only [EntropyOutcome.record_ret, EntropyOutcome.record_calls, delivered]
    omega
  ret_cases := by simpa using ho.ret_cases
  fail_last h :=
    let ⟨pre, c, hc, hr⟩ := ho.fail_last h
    ⟨_ :: pre, c, congrArg (List.cons _) hc, hr⟩
  calls_ne_nil _ := List.cons_ne_nil _ _

end FillSpec

/-- Every outcome of the loop, against any `getrandom` that never delivers more bytes than it
was asked for, satisfies `FillSpec`. -/
theorem getentropyLoop_fillSpec {getrandom : Getrandom} {endBuffer : Nat}
    (hbytes : ∀ i req n, getrandom i req = .ok n → n ≤ req.length)
    {fuel buffer i : Nat} {errno : Int} {o : EntropyOutcome}
    (h : getentropyLoop getrandom endBuffer fuel buffer i errno = some o) :
    FillSpec buffer endBuffer o := by
  induction fuel generalizing buffer i errno o with
  | zero => simp [getentropyLoop] at h
  | succ fuel ih =>
    rcases getentropyLoop_succ_cases h with
      ⟨hle, rfl⟩ | ⟨hlt, hg, o', ho', rfl⟩ | ⟨hlt, n, hn, hg, o', ho', rfl⟩ | ⟨hlt, hg, rfl⟩ |
        ⟨hlt, e, he, hg, rfl⟩
    · exact .full hle
    · exact .intr hlt (ih ho')
    · exact .bytes hlt hn (hbytes _ _ _ hg) (ih ho')
    · exact .last hlt (.inl ⟨rfl, rfl⟩)
    · exact .last hlt (.inr ⟨e, he, rfl, rfl⟩)

/-- `Compat_getentropy(buffer, length)` against any `getrandom` that never delivers more bytes than
asked for and is interrupted only finitely often terminates; above 256 bytes it fails with `EIO`
without calling `getrandom`; otherwise its calls and its result satisfy `FillSpec` over
`[buffer, buffer + length)`. -/
theorem compatGetentropy_spec (getrandom : Getrandom) (buffer length : Nat) (errno : Int)
    (hbytes : ∀ i req n, getrandom i req = .ok n → n ≤ req.length)
    (hintr : ∃ N, ∀ i, N ≤ i → ∀ req, getrandom i req ≠ .err EINTR) :
    ∃ fuel o, (∀ fuel', fuel ≤ fuel' →
        compatGetentropy getrandom fuel' buffer length errno = some o) ∧
      (256 < length → o = ⟨-1, EIO, []⟩) ∧
      (length ≤ 256 → FillSpec buffer (buffer + length) o) := by
  obtain ⟨N, hN⟩ := hintr
  by_cases hlen : 256 < length
  · exact ⟨0, _, fun _ _ => by simp [compatGetentropy, hlen], fun _ => rfl,
      fun h => absurd hlen (Nat.not_lt.mpr h)⟩
  · obtain ⟨o, ho⟩ : ∃ o, getentropyLoop getrandom (buffer + length) (N + length + 1) buffer 0 errno =
        some o := getentropyLoop_isSome hN (by omega)
    refine ⟨N + length + 1, o, fun fuel' hf => ?_, fun h => absurd h hlen,
      fun _ => getentropyLoop_fillSpec hbytes ho⟩
    simp only [compatGetentropy, if_neg hlen]
    exact getentropyLoop_mono ho hf

/-- A `getrandom` interrupted at its first call and delivering one byte per call after. -/
def dribbleGetrandom : Getrandom := fun i req =>
  if i = 0 then .err EINTR else if req.length = 0 then .ok 0 else .ok 1

theorem compatGetentropy_spec_dribble :
    (∀ i req n, dribbleGetrandom i req = .ok n → n ≤ req.length) ∧
    (∃ N, ∀ i, N ≤ i → ∀ req, dribbleGetrandom i req ≠ .err EINTR) ∧
    ∃ fuel o, (∀ fuel', fuel ≤ fuel' →
        compatGetentropy dribbleGetrandom fuel' 16 3 0 = some o) ∧
      (256 < 3 → o = ⟨-1, EIO, []⟩) ∧
      (3 ≤ 256 → FillSpec 16 (16 + 3) o) :=
  have hbytes : ∀ i req n, dribbleGetrandom i req = .ok n → n ≤ req.length := fun i req n h => by
    unfold dribbleGetrandom at h; split at h <;> [skip; split at h] <;> simp at h <;> omega
  have hintr : ∃ N, ∀ i, N ≤ i → ∀ req, dribbleGetrandom i req ≠ .err EINTR :=
    ⟨1, fun i hi req => by unfold dribbleGetrandom; rw [if_neg (by omega)]; split <;> simp⟩
  ⟨hbytes, hintr, compatGetentropy_spec dribbleGetrandom 16 3 0 hbytes hintr⟩

example : compatGetentropy dribbleGetrandom 5 16 3 0 = some ⟨0, EINTR,
    [(⟨16, 3, 0⟩, .err EINTR), (⟨16, 3, 0⟩, .ok 1), (⟨17, 2, 0⟩, .ok 1), (⟨18, 1, 0⟩, .ok 1)]⟩ := by
  decide

end CvCuda.Compat
