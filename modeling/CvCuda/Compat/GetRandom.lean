import CvCuda.Compat.Libc

/-!
# `Compat_getrandom` and the weak `getrandom`

Reference: `src/util/Compat.c.in:244-323`.

`Compat_getrandom` keeps one descriptor per blocking mode in the process-wide atomics
`afdrandom_block` and `afdrandom_nonblock`. A call loads the cell its flags select; when it holds
0, the call opens `/dev/random` or `/dev/urandom` and tries to install its descriptor with
`atomic_compare_exchange_weak`, closing its own descriptor when that fails. It then asserts that
its descriptor is not 0 and reads from it. The weak `getrandom` first tries the kernel's system
call and falls back on `Compat_getrandom` when the kernel answers `ENOSYS`.

Several threads may run these calls at once, so each call is a thread whose every shared access
is one atomic step (`threadStep`). What a step meets but does not decide (the descriptor `open`
returns, whether a weak compare-exchange fails spuriously, what `read` returns) is a `Choice`;
the kernel's system call is a function `Kernel` of its arguments. `Reachable` collects the states
of every interleaving of any number of calls, under a predicate on the choices the environment
may make.
-/

namespace CvCuda.Compat

/-- A file a descriptor refers to: the path it was opened on and the flags it was opened with. -/
structure OpenFile where
  path : String
  openFlags : Nat
  deriving DecidableEq, Repr

/-- The state the threads share: the cache cells `afdrandom_block` and `afdrandom_nonblock`
(`Compat.c.in:250-251`) and the process's descriptor table. -/
structure Proc where
  afdrandomBlock : Int
  afdrandomNonblock : Int
  fds : Int → Option OpenFile

/-- `const unsigned int validFlags = GRND_RANDOM|GRND_NONBLOCK` (`Compat.c.in:255`). -/
def validFlags : UInt32 := GRND_RANDOM ||| GRND_NONBLOCK

/-- The test `flags & GRND_NONBLOCK` (`Compat.c.in:262, 278`). -/
def nonblocking (flags : UInt32) : Bool := flags &&& GRND_NONBLOCK != 0

/-- The cell `flags` select (`Compat.c.in:262`). -/
def Proc.cell (p : Proc) (flags : UInt32) : Int :=
  if nonblocking flags then p.afdrandomNonblock else p.afdrandomBlock

/-- `p` with `fd` stored in the cell `flags` select. -/
def Proc.setCell (p : Proc) (flags : UInt32) (fd : Int) : Proc :=
  if nonblocking flags then { p with afdrandomNonblock := fd } else { p with afdrandomBlock := fd }

/-- `p` after `open` returned `fd` for the file `f`. -/
def Proc.openFd (p : Proc) (fd : Int) (f : OpenFile) : Proc :=
  { p with fds := Function.update p.fds fd (some f) }

/-- `p` after `close(fd)`. -/
def Proc.closeFd (p : Proc) (fd : Int) : Proc :=
  { p with fds := Function.update p.fds fd none }

/-- The device `Compat_getrandom` opens for `flags` (`Compat.c.in:267-275`). -/
def randomSource (flags : UInt32) : String :=
  if flags &&& GRND_RANDOM != 0 then "/dev/random" else "/dev/urandom"

/-- The flags it opens the device with (`Compat.c.in:277-281`). -/
def randomOpenFlags (flags : UInt32) : Nat :=
  if nonblocking flags then O_RDONLY ||| O_NONBLOCK else O_RDONLY

/-- The `(int)` conversion of a `long`: reduction into `[-2^31, 2^31)`. -/
def toInt32 (x : Int) : Int := (x + 2147483648) % 4294967296 - 2147483648

/-- A kernel's `getrandom` system call: its answer to `(buffer, length, flags)`. -/
def Kernel := Nat → Nat → UInt32 → SysResult

/-- Where a thread is in a call of `getrandom` or `Compat_getrandom`. -/
inductive Pc
  /-- At the system call of `getrandom` (`Compat.c.in:310`). -/
  | getrandom
  /-- At the flags check of `Compat_getrandom` (`Compat.c.in:256`). -/
  | entry
  /-- At `atomic_load(afdrandom)` (`Compat.c.in:264`). -/
  | load
  /-- At `open(src, openFlags)`, with `fdrandom` 0 (`Compat.c.in:284`). -/
  | openDev
  /-- At `atomic_compare_exchange_weak(afdrandom, &fdrandom, fd)` (`Compat.c.in:290`). -/
  | cas (fd : Int)
  /-- At `close(fd)` after a failed exchange (`Compat.c.in:297`). -/
  | close (fdrandom fd : Int)
  /-- At `assert(fdrandom != 0)` (`Compat.c.in:301`). -/
  | check (fdrandom : Int)
  /-- At `read(fdrandom, buffer, length)` (`Compat.c.in:303`). -/
  | read (fdrandom : Int)
  /-- Returned `ret`. -/
  | done (ret : Int)
  /-- Stopped by the failed assertion. -/
  | aborted
  deriving DecidableEq, Repr

/-- One call in flight: its arguments, where it is, and its thread's `errno`. -/
structure Thread where
  buffer : Nat
  length : Nat
  flags : UInt32
  pc : Pc
  errno : Int
  deriving DecidableEq, Repr

/-- What a step meets but does not decide: the descriptor `open` returns (negative on failure,
with `openErrno`), whether a weak compare-exchange fails although the cell holds the expected
value, and what `read` returns. -/
structure Choice where
  openRet : Int
  openErrno : Int
  spurious : Bool
  readRet : SysResult
  deriving DecidableEq, Repr

/-- The thread `t` moved to `pc`. -/
def Thread.goto (t : Thread) (pc : Pc) : Thread := { t with pc := pc }

/-- One atomic step of thread `t` (`Compat.c.in:253-323`). `ndebug` says whether `assert` is
compiled out. -/
def threadStep (kernel : Kernel) (ndebug : Bool) (c : Choice) (p : Proc) (t : Thread) :
    Proc × Thread :=
  match t.pc with
  | .getrandom =>
    -- `ssize_t nbytes = (int)syscall(SYS_getrandom, buffer, length, 0);`
    let r := kernel t.buffer t.length 0
    let errno := match r with
      | .err e => e
      | .ok _ => t.errno
    let nbytes := toInt32 r.ret
    if nbytes < 0 ∧ errno = ENOSYS then (p, { t with errno := errno, pc := .entry })
    else (p, { t with errno := errno, pc := .done nbytes })
  | .entry =>
    if (t.flags ||| validFlags) != validFlags then (p, { t with errno := EINVAL, pc := .done (-1) })
    else (p, t.goto .load)
  | .load =>
    let fdrandom := p.cell t.flags
    if fdrandom = 0 then (p, t.goto .openDev) else (p, t.goto (.check fdrandom))
  | .openDev =>
    if c.openRet < 0 then (p, { t with errno := c.openErrno, pc := .done (-1) })
    else
      (p.openFd c.openRet ⟨randomSource t.flags, randomOpenFlags t.flags⟩, t.goto (.cas c.openRet))
  | .cas fd =>
    -- the expected value is the `fdrandom` loaded before, 0
    if p.cell t.flags = 0 ∧ c.spurious = false then (p.setCell t.flags fd, t.goto (.check fd))
    else (p, t.goto (.close (p.cell t.flags) fd))
  | .close fdrandom fd => (p.closeFd fd, t.goto (.check fdrandom))
  | .check fdrandom =>
    if fdrandom = 0 ∧ ndebug = false then (p, t.goto .aborted) else (p, t.goto (.read fdrandom))
  | .read _ =>
    match c.readRet with
    | .ok n => (p, t.goto (.done n))
    | .err e => (p, { t with errno := e, pc := .done (-1) })
  | .done _ => (p, t)
  | .aborted => (p, t)

/-! ## The two paths of `getrandom` -/

/-- A kernel whose `getrandom` checks its flags as getrandom(2) does: `EINVAL` for a bit outside
`GRND_RANDOM|GRND_NONBLOCK`, otherwise the whole buffer. -/
def flagCheckingKernel : Kernel := fun _ length flags =>
  if (flags ||| validFlags) != validFlags then .err EINVAL else .ok length

/-- `(int)` keeps a count below `2^31`. -/
theorem toInt32_of_lt {n : Nat} (hn : n < 2147483648) : toInt32 n = n := by
  unfold toInt32; omega

/-- The weak `getrandom` hands the kernel flags 0, whatever flags it was called with: when the
kernel answers a count `n` to flags 0, every call returns `n`, with `errno` untouched. -/
theorem getrandom_passes_zero_flags (kernel : Kernel) (ndebug : Bool) (c : Choice) (p : Proc)
    (buffer length n : Nat) (flags : UInt32) (errno : Int) (hk : kernel buffer length 0 = .ok n)
    (hn : n < 2147483648) :
    threadStep kernel ndebug c p ⟨buffer, length, flags, .getrandom, errno⟩ =
      (p, ⟨buffer, length, flags, .done n, errno⟩) := by
  have hpos : ¬(n : Int) < 0 := by omega
  simp only [threadStep, hk, SysResult.ret, toInt32_of_lt hn, hpos, false_and, if_false]

/-- With flags `0x666`, which the kernel rejects and `Compat_getrandom` answers with `EINVAL`, the
system call path returns the 16 bytes the kernel gives for flags 0. -/
theorem getrandom_passes_zero_flags_invalid :
    flagCheckingKernel 0 16 0x666 = .err EINVAL ∧
    threadStep flagCheckingKernel false ⟨-1, 0, false, .ok 0⟩ ⟨0, 0, fun _ => none⟩
        ⟨0, 16, 0x666, .entry, 0⟩ =
      (⟨0, 0, fun _ => none⟩, ⟨0, 16, 0x666, .done (-1), EINVAL⟩) ∧
    threadStep flagCheckingKernel false ⟨-1, 0, false, .ok 0⟩ ⟨0, 0, fun _ => none⟩
        ⟨0, 16, 0x666, .getrandom, 0⟩ =
      (⟨0, 0, fun _ => none⟩, ⟨0, 16, 0x666, .done 16, 0⟩) :=
  ⟨by decide, rfl, getrandom_passes_zero_flags _ _ _ _ 0 16 16 0x666 0 (by decide) (by decide)⟩

/-! ## What one step does

`threadStep_effect` lists everything a step can do to the shared state, in terms of the descriptor
a call holds (opened, not yet installed or closed) and the `fdrandom` it has settled on. Every
invariant over runs is derived from it, never from `threadStep` itself.
-/

@[simp] theorem Proc.openFd_cell (p : Proc) (fd : Int) (f : OpenFile) (flags : UInt32) :
    (p.openFd fd f).cell flags = p.cell flags := rfl

@[simp] theorem Proc.closeFd_cell (p : Proc) (fd : Int) (flags : UInt32) :
    (p.closeFd fd).cell flags = p.cell flags := rfl

@[simp] theorem Proc.openFd_fds (p : Proc) (fd : Int) (f : OpenFile) (x : Int) :
    (p.openFd fd f).fds x = if x = fd then some f else p.fds x := Function.update_apply _ _ _ _

@[simp] theorem Proc.closeFd_fds (p : Proc) (fd x : Int) :
    (p.closeFd fd).fds x = if x = fd then none else p.fds x := Function.update_apply _ _ _ _

@[simp] theorem Proc.setCell_fds (p : Proc) (flags : UInt32) (fd : Int) :
    (p.setCell flags fd).fds = p.fds := by
  unfold Proc.setCell; split <;> rfl

/-- Storing in one cell changes what the flags selecting that cell read, and nothing else. -/
theorem Proc.setCell_cell (p : Proc) (f g : UInt32) (fd : Int) :
    (p.setCell f fd).cell g = if nonblocking g = nonblocking f then fd else p.cell g := by
  unfold Proc.setCell Proc.cell
  cases nonblocking f <;> cases nonblocking g <;> rfl

/-- Flags that select the same cell read the same cell. -/
theorem Proc.cell_congr (p : Proc) {f g : UInt32} (h : nonblocking g = nonblocking f) :
    p.cell g = p.cell f := by
  simp only [Proc.cell, h]

/-- Flags that select the same cell open the device in the same blocking mode. -/
theorem randomOpenFlags_congr {f g : UInt32} (h : nonblocking g = nonblocking f) :
    randomOpenFlags g = randomOpenFlags f := by
  simp only [randomOpenFlags, h]

/-- The descriptor a call has opened and neither installed nor closed yet. -/
def Thread.held (t : Thread) : Option Int :=
  match t.pc with
  | .cas fd | .close _ fd => some fd
  | _ => none

/-- The `fdrandom` a call has settled on: loaded from its cell, installed, or loaded by a failed
exchange. -/
def Thread.fdrandom (t : Thread) : Option Int :=
  match t.pc with
  | .close r _ | .check r | .read r => some r
  | _ => none

/-- What one step of call `t` in state `p`, meeting `c`, does: the state `p'` it leaves and the
call `t'` it becomes. -/
inductive StepEffect (c : Choice) (p : Proc) (t : Thread) (p' : Proc) (t' : Thread) : Prop
  /-- A step that touches neither the cells nor the descriptor table, by a call holding none. -/
  | quiet : p' = p → t.held = none → t'.held = none →
      t'.fdrandom = none ∨ t'.fdrandom = t.fdrandom → StepEffect c p t p' t'
  /-- `atomic_load` finds a descriptor in the cell. -/
  | load : p' = p → t.held = none → t'.held = none → p.cell t.flags ≠ 0 →
      t'.fdrandom = some (p.cell t.flags) → StepEffect c p t p' t'
  /-- `open` returns a descriptor, which the call now holds. -/
  | openDev : p' = p.openFd c.openRet ⟨randomSource t.flags, randomOpenFlags t.flags⟩ →
      t.held = none → 0 ≤ c.openRet → t'.held = some c.openRet → t'.fdrandom = none →
      StepEffect c p t p' t'
  /-- The exchange installs the call's descriptor `fd` in its cell, which held 0. -/
  | install (fd : Int) : p' = p.setCell t.flags fd → t.held = some fd → p.cell t.flags = 0 →
      c.spurious = false → t'.held = none → t'.fdrandom = some fd → StepEffect c p t p' t'
  /-- The exchange fails and loads what the cell holds. -/
  | fail (fd : Int) : p' = p → t.held = some fd → p.cell t.flags ≠ 0 ∨ c.spurious = true →
      t'.held = some fd → t'.fdrandom = some (p.cell t.flags) → StepEffect c p t p' t'
  /-- `close` of the call's own descriptor `fd`. -/
  | close (fd : Int) : p' = p.closeFd fd → t.held = some fd → t'.held = none →
      t'.fdrandom = t.fdrandom → StepEffect c p t p' t'

theorem threadStep_flags (kernel : Kernel) (ndebug : Bool) (c : Choice) (p : Proc) (t : Thread) :
    (threadStep kernel ndebug c p t).2.flags = t.flags := by
  obtain ⟨buffer, length, flags, pc, errno⟩ := t
  cases pc <;> simp only [threadStep] <;> (try split) <;> rfl

theorem threadStep_effect (kernel : Kernel) (ndebug : Bool) (c : Choice) (p : Proc) (t : Thread) :
    StepEffect c p t (threadStep kernel ndebug c p t).1 (threadStep kernel ndebug c p t).2 := by
  obtain ⟨buffer, length, flags, pc, errno⟩ := t
  cases pc with
  | getrandom => simp only [threadStep]; split <;> exact .quiet rfl rfl rfl (.inl rfl)
  | entry => simp only [threadStep]; split <;> exact .quiet rfl rfl rfl (.inl rfl)
  | load =>
    simp only [threadStep]
    split
    · exact .quiet rfl rfl rfl (.inl rfl)
    · exact .load rfl rfl rfl ‹_› rfl
  | openDev =>
    simp only [threadStep]
    split
    · exact .quiet rfl rfl rfl (.inl rfl)
    · exact .openDev rfl rfl (by omega) rfl rfl
  | cas fd =>
    simp only [threadStep]
    split
    · rename_i h; exact .install fd rfl rfl h.1 h.2 rfl rfl
    · rename_i h
      refine .fail fd rfl rfl ?_ rfl rfl
      by_cases h0 : Proc.cell p flags = 0
      · exact .inr (by simpa [h0] using h)
      · exact .inl h0
  | close r fd => exact .close fd rfl rfl rfl rfl
  | check r =>
    simp only [threadStep]
    split
    · exact .quiet rfl rfl rfl (.inl rfl)
    · exact .quiet rfl rfl rfl (.inr rfl)
  | read r => simp only [threadStep]; split <;> exact .quiet rfl rfl rfl (.inl rfl)
  | done r => exact .quiet rfl rfl rfl (.inl rfl)
  | aborted => exact .quiet rfl rfl rfl (.inl rfl)

/-! ## Runs -/

/-- The process together with every call started so far. -/
structure Sys where
  proc : Proc
  threads : List Thread

/-- An event of a run: a call starts, or the call at position `i` takes a step meeting `c`. -/
inductive Event
  | spawn (t : Thread)
  | step (i : Nat) (c : Choice)
  deriving DecidableEq, Repr

/-- The state after `ev`. -/
def Sys.next (kernel : Kernel) (ndebug : Bool) (s : Sys) : Event → Sys
  | .spawn t => ⟨s.proc, s.threads ++ [t]⟩
  | .step i c =>
    match s.threads[i]? with
    | some t => ⟨(threadStep kernel ndebug c s.proc t).1,
        s.threads.set i (threadStep kernel ndebug c s.proc t).2⟩
    | none => s

/-- Whether `ev` may happen in `s` when the environment makes only the choices `allowed` admits:
a call starts at the entry of `getrandom` or of `Compat_getrandom`. -/
def Sys.Allows (allowed : Proc → Choice → Prop) (s : Sys) : Event → Prop
  | .spawn t => t.pc = .getrandom ∨ t.pc = .entry
  | .step i c => i < s.threads.length ∧ allowed s.proc c

/-- The choices every environment respects: `open` fails, or returns a descriptor not in use. -/
def ChoiceOk (p : Proc) (c : Choice) : Prop := c.openRet < 0 ∨ p.fds c.openRet = none

instance (p : Proc) (c : Choice) : Decidable (ChoiceOk p c) :=
  inferInstanceAs (Decidable (_ ∨ _))

/-- The process before any call: both cells hold their initial 0 and the descriptor table is
`fds`. -/
def Sys.start (fds : Int → Option OpenFile) : Sys := ⟨⟨0, 0, fds⟩, []⟩

/-- The states of every interleaving of any number of calls from `Sys.start fds`, when the
environment makes only the choices `allowed` admits. -/
inductive Reachable (kernel : Kernel) (ndebug : Bool) (allowed : Proc → Choice → Prop)
    (fds : Int → Option OpenFile) : Sys → Prop
  | init : Reachable kernel ndebug allowed fds (Sys.start fds)
  | next {s : Sys} {ev : Event} : Reachable kernel ndebug allowed fds s → s.Allows allowed ev →
      Reachable kernel ndebug allowed fds (s.next kernel ndebug ev)

/-- The state after the events `evs`, in order. -/
def Sys.run (kernel : Kernel) (ndebug : Bool) (s : Sys) (evs : List Event) : Sys :=
  evs.foldl (Sys.next kernel ndebug) s

/-- Whether every event of `evs` may happen where it occurs. -/
def Sys.AllowsRun (kernel : Kernel) (ndebug : Bool) (allowed : Proc → Choice → Prop) :
    Sys → List Event → Prop
  | _, [] => True
  | s, ev :: evs => s.Allows allowed ev ∧ (s.next kernel ndebug ev).AllowsRun kernel ndebug allowed evs

instance (allowed : Proc → Choice → Prop) [∀ p c, Decidable (allowed p c)] (s : Sys) (ev : Event) :
    Decidable (s.Allows allowed ev) :=
  match ev with
  | .spawn _ => inferInstanceAs (Decidable (_ ∨ _))
  | .step _ _ => inferInstanceAs (Decidable (_ ∧ _))

instance Sys.decAllowsRun (kernel : Kernel) (ndebug : Bool) (allowed : Proc → Choice → Prop)
    [∀ p c, Decidable (allowed p c)] : (s : Sys) → (evs : List Event) →
    Decidable (s.AllowsRun kernel ndebug allowed evs)
  | _, [] => inferInstanceAs (Decidable True)
  | s, ev :: evs =>
    have := Sys.decAllowsRun kernel ndebug allowed (s.next kernel ndebug ev) evs
    inferInstanceAs (Decidable (_ ∧ _))

@[simp] theorem Sys.run_cons (kernel : Kernel) (ndebug : Bool) (s : Sys) (ev : Event)
    (evs : List Event) :
    s.run kernel ndebug (ev :: evs) = (s.next kernel ndebug ev).run kernel ndebug evs := rfl

theorem Sys.Allows.mono {a b : Proc → Choice → Prop} (hab : ∀ p c, a p c → b p c) {s : Sys}
    {ev : Event} (h : s.Allows a ev) : s.Allows b ev := by
  cases ev with
  | spawn t => exact h
  | step i c => exact ⟨h.1, hab _ _ h.2⟩

/-- A state reachable under an environment is reachable under any that allows more. -/
theorem Reachable.mono {kernel : Kernel} {ndebug : Bool} {a b : Proc → Choice → Prop}
    {fds : Int → Option OpenFile} (hab : ∀ p c, a p c → b p c) {s : Sys}
    (hs : Reachable kernel ndebug a fds s) : Reachable kernel ndebug b fds s := by
  induction hs with
  | init => exact .init
  | next _ hev ih => exact ih.next (hev.mono hab)

theorem Reachable.run {kernel : Kernel} {ndebug : Bool} {allowed : Proc → Choice → Prop}
    {fds : Int → Option OpenFile} {s : Sys} (hs : Reachable kernel ndebug allowed fds s)
    {evs : List Event} (h : s.AllowsRun kernel ndebug allowed evs) :
    Reachable kernel ndebug allowed fds (s.run kernel ndebug evs) := by
  induction evs generalizing s with
  | nil => exact hs
  | cons ev evs ih => exact ih (hs.next h.1) h.2

end CvCuda.Compat
