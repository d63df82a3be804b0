import Mathlib.Tactic.Common
import Mathlib.Data.List.Basic

/-!
# `CallInit`: running the executable's initialisers under glibc 2.34

Reference: `src/util/Compat.c.in:80-188`.

From glibc 2.34 on, `__libc_start_main` runs the executable's initialisers itself, so the
wrapper linked against the old `__libc_start_main` passes `CallInit` as its `init` argument.
`CallInit` runs once per process (the `static int fnCalled` flag is set before any initialiser
is called), reads `DT_INIT`, `DT_INIT_ARRAY` and `DT_INIT_ARRAYSZ` from the executable's dynamic
section, and calls the `DT_INIT` function when its address is not 0, then the entries of the
`DT_INIT_ARRAY` array.

The model keeps the data `CallInit` computes (`scanDynamic`, `initCalls`) apart from the process
around it: `CallInitRun` is a big-step semantics in which every initialiser may itself call
`CallInit` any number of times before it returns. `dlopen` and `dlinfo` are taken to succeed, as
they do for the running executable; the load offset `l_addr` is a parameter.

`callInit_initializers` states the whole-process result: from the initial state, any sequence of
calls (re-entrant ones included) exists, and the initialisers it runs are `expectedInits`, each
once, in order, with the arguments of the first call.
-/

namespace CvCuda.Compat

/-- `DT_NULL` (`<elf.h>`). -/
def DT_NULL : Int := 0

/-- `DT_INIT` (`<elf.h>`). -/
def DT_INIT : Int := 12

/-- `DT_INIT_ARRAY` (`<elf.h>`). -/
def DT_INIT_ARRAY : Int := 25

/-- `DT_INIT_ARRAYSZ` (`<elf.h>`). -/
def DT_INIT_ARRAYSZ : Int := 27

/-- An `ElfW(Dyn)` entry: its tag and its `d_un` union, read as `d_ptr` or `d_val`. -/
structure Dyn where
  d_tag : Int
  d_un : UInt64
  deriving DecidableEq, Repr

/-- The locals the loop over `_DYNAMIC` fills in (`Compat.c.in:110-112`): `dtInit`, the address
`dtInitArray` and `unsigned int dtInitArraySize`. -/
structure DynInfo where
  dtInit : UInt64
  dtInitArray : UInt64
  dtInitArraySize : UInt32
  deriving DecidableEq, Repr

/-- One iteration of the `switch(dyn->d_tag)` (`Compat.c.in:116-133`). -/
def dynStep (lAddr : UInt64) (info : DynInfo) (dyn : Dyn) : DynInfo :=
  if dyn.d_tag = DT_INIT then { info with dtInit := lAddr + dyn.d_un }
  else if dyn.d_tag = DT_INIT_ARRAY then { info with dtInitArray := lAddr + dyn.d_un }
  else if dyn.d_tag = DT_INIT_ARRAYSZ then { info with dtInitArraySize := (dyn.d_un / 8).toUInt32 }
  else info

/-- The loop `for(ElfW(Dyn) *dyn = _DYNAMIC; dyn->d_tag != DT_NULL; ++dyn)`
(`Compat.c.in:114-134`). -/
def scanDynamic (lAddr : UInt64) : List Dyn → DynInfo → DynInfo
  | [], info => info
  | dyn :: rest, info =>
    if dyn.d_tag = DT_NULL then info else scanDynamic lAddr rest (dynStep lAddr info dyn)

/-- The initialisers `CallInit` calls, in order (`Compat.c.in:138-148`): the `DT_INIT` function
when its address is not 0, then entries `0 .. dtInitArraySize - 1` of `dtInitArray`, read from
`mem`, the machine word at each address. -/
def initCalls (mem : UInt64 → UInt64) (info : DynInfo) : List UInt64 :=
  (if info.dtInit ≠ 0 then [info.dtInit] else []) ++
    (List.range info.dtInitArraySize.toNat).map fun i => mem (info.dtInitArray + 8 * i.toUInt64)

/-! ## The process -/

/-- The arguments `(argc, argv, env)` of `CallInit`, passed on to every initialiser. -/
structure InitArgs where
  argc : Int
  argv : UInt64
  env : UInt64
  deriving DecidableEq, Repr

/-- What `CallInit` depends on: the load offset, the dynamic section, the memory holding the
initialiser array, and, for every initialiser, the `CallInit` calls it makes before it returns. -/
structure InitEnv where
  lAddr : UInt64
  dynamic : List Dyn
  mem : UInt64 → UInt64
  reentry : UInt64 → List InitArgs

/-- The process state `CallInit` reads and writes: its `static int fnCalled`, and the initialiser
calls made so far, with their arguments. -/
structure InitState where
  fnCalled : Bool
  calls : List (UInt64 × InitArgs)

/-- The initialisers `CallInit` computes for `e`. -/
def InitEnv.inits (e : InitEnv) : List UInt64 :=
  initCalls e.mem (scanDynamic e.lAddr e.dynamic ⟨0, 0, 0⟩)

mutual

/-- `CallInit(args)` (`Compat.c.in:83-152`) runs from `s` to `s'`: it returns at once once
`fnCalled` is set, and otherwise sets it and calls the initialisers. -/
inductive CallInitRun (e : InitEnv) : InitArgs → InitState → InitState → Prop
  | called {args : InitArgs} {s : InitState} : s.fnCalled = true → CallInitRun e args s s
  | first {args : InitArgs} {s s' : InitState} : s.fnCalled = false →
      InitsRun e args e.inits { s with fnCalled := true } s' → CallInitRun e args s s'

/-- Calling the initialisers `fs` in order with `args`; each runs the `CallInit` calls it makes. -/
inductive InitsRun (e : InitEnv) : InitArgs → List UInt64 → InitState → InitState → Prop
  | nil {args : InitArgs} {s : InitState} : InitsRun e args [] s s
  | cons {args : InitArgs} {f : UInt64} {fs : List UInt64} {s s₁ s₂ : InitState} :
      CallInitSeq e (e.reentry f) { s with calls := s.calls ++ [(f, args)] } s₁ →
      InitsRun e args fs s₁ s₂ → InitsRun e args (f :: fs) s s₂

/-- A sequence of `CallInit` calls, one after another. -/
inductive CallInitSeq (e : InitEnv) : List InitArgs → InitState → InitState → Prop
  | nil {s : InitState} : CallInitSeq e [] s s
  | cons {a : InitArgs} {as : List InitArgs} {s s₁ s₂ : InitState} :
      CallInitRun e a s s₁ → CallInitSeq e as s₁ s₂ → CallInitSeq e (a :: as) s s₂

end

/-- The state of a process before its first `CallInit`. -/
def InitState.initial : InitState := ⟨false, []⟩

/-! ## Runs of `CallInit`

Nested calls find `fnCalled` set and return at once, so the only initialiser calls of a run are
those of its first `CallInit`, and every run exists. -/

section Runs

variable {e : InitEnv}

/-- Once `fnCalled` is set, `CallInit` changes nothing. -/
theorem CallInitRun.eq_of_called {args : InitArgs} {s s' : InitState} (h : CallInitRun e args s s')
    (hc : s.fnCalled = true) : s' = s := by
  cases h with
  | called _ => rfl
  | first hf _ => simp [hc] at hf

theorem CallInitSeq.eq_of_called {as : List InitArgs} {s s' : InitState} (h : CallInitSeq e as s s')
    (hc : s.fnCalled = true) : s' = s := by
  induction as generalizing s with
  | nil => cases h; rfl
  | cons a as ih =>
    cases h with
    | cons h₁ h₂ =>
      obtain rfl := h₁.eq_of_called hc
      exact ih h₂ hc

/-- With `fnCalled` set, calling the initialisers `fs` records exactly them, in order. -/
theorem InitsRun.eq_of_called {args : InitArgs} {fs : List UInt64} {s s' : InitState}
    (h : InitsRun e args fs s s') (hc : s.fnCalled = true) :
    s' = { s with calls := s.calls ++ fs.map (·, args) } := by
  induction fs generalizing s with
  | nil => cases h; simp
  | cons f fs ih =>
    cases h with
    | cons h₁ h₂ =>
      obtain rfl := h₁.eq_of_called hc
      rw [ih h₂ hc]
      simp

/-- The first `CallInit` of a process sets `fnCalled` and records the initialisers it computes. -/
theorem CallInitRun.eq_of_first {args : InitArgs} {s s' : InitState} (h : CallInitRun e args s s')
    (hc : s.fnCalled = false) : s' = ⟨true, s.calls ++ e.inits.map (·, args)⟩ := by
  cases h with
  | called hc' => simp [hc] at hc'
  | first _ h => exact h.eq_of_called rfl

theorem CallInitSeq.of_called (as : List InitArgs) {s : InitState} (hc : s.fnCalled = true) :
    CallInitSeq e as s s := by
  induction as with
  | nil => exact .nil
  | cons a as ih => exact .cons (.called hc) ih

theorem InitsRun.of_called (args : InitArgs) (fs : List UInt64) {s : InitState}
    (hc : s.fnCalled = true) : InitsRun e args fs s { s with calls := s.calls ++ fs.map (·, args) } := by
  induction fs generalizing s with
  | nil => simpa using InitsRun.nil
  | cons f fs ih =>
    have := ih (s := { s with calls := s.calls ++ [(f, args)] }) hc
    simp only [List.append_assoc, List.singleton_append] at this
    exact .cons (.of_called _ hc) (by simpa using this)

/-- `CallInit` always returns. -/
theorem CallInitRun.exists (args : InitArgs) (s : InitState) : ∃ s', CallInitRun e args s s' := by
  cases hc : s.fnCalled
  · exact ⟨_, .first hc (.of_called args e.inits rfl)⟩
  · exact ⟨s, .called hc⟩

theorem CallInitSeq.exists (as : List InitArgs) (s : InitState) : ∃ s', CallInitSeq e as s s' := by
  induction as generalizing s with
  | nil => exact ⟨s, .nil⟩
  | cons a as ih =>
    obtain ⟨s₁, h₁⟩ := CallInitRun.exists (e := e) a s
    obtain ⟨s₂, h₂⟩ := ih s₁
    exact ⟨s₂, .cons h₁ h₂⟩

/-- Over a whole process, the initialisers run are those the first `CallInit` computes, with its
arguments. -/
theorem CallInitSeq.calls_of_initial {first : InitArgs} {later : List InitArgs} {s : InitState}
    (h : CallInitSeq e (first :: later) .initial s) : s.calls = e.inits.map (·, first) := by
  cases h with
  | cons h₁ h₂ =>
    obtain rfl := h₁.eq_of_first rfl
    obtain rfl := h₂.eq_of_called rfl
    simp [InitState.initial]

end Runs

/-! ## What the scan of the dynamic section finds -/

/-- The `d_un` of the last entry of `entries` tagged `tag`. -/
def lastWith (tag : Int) (entries : List Dyn) : Option UInt64 :=
  (entries.filter (·.d_tag = tag)).getLast?.map (·.d_un)

theorem lastWith_append_singleton (tag : Int) (entries : List Dyn) (dyn : Dyn) :
    lastWith tag (entries ++ [dyn]) = if dyn.d_tag = tag then some dyn.d_un else lastWith tag entries := by
  unfold lastWith
  split <;> simp [List.filter_append, *]

/-- Up to its `DT_NULL`, the scan is a left fold of `dynStep`. -/
theorem scanDynamic_append_null (lAddr : UInt64) {entries : List Dyn}
    (hnull : ∀ dyn ∈ entries, dyn.d_tag ≠ DT_NULL) (v : UInt64) (info : DynInfo) :
    scanDynamic lAddr (entries ++ [⟨DT_NULL, v⟩]) info = entries.foldl (dynStep lAddr) info := by
  induction entries generalizing info with
  | nil => simp [scanDynamic]
  | cons dyn entries ih =>
    simp only [List.mem_cons, forall_eq_or_imp] at hnull
    simp [scanDynamic, hnull.1, ih hnull.2]

/-- Each local ends up from the last entry with its tag, or keeps its initial value. -/
theorem foldl_dynStep (lAddr : UInt64) (entries : List Dyn) (info : DynInfo) :
    entries.foldl (dynStep lAddr) info =
      ⟨((lastWith DT_INIT entries).map (lAddr + ·)).getD info.dtInit,
        ((lastWith DT_INIT_ARRAY entries).map (lAddr + ·)).getD info.dtInitArray,
        ((lastWith DT_INIT_ARRAYSZ entries).map fun d => (d / 8).toUInt32).getD
          info.dtInitArraySize⟩ := by
  induction entries using List.reverseRecOn with
  | nil => rfl
  | append_singleton entries dyn ih =>
    rw [List.foldl_append, List.foldl_cons, List.foldl_nil, ih]
    simp only [lastWith_append_singleton, dynStep]
    split_ifs <;> simp_all [DT_INIT, DT_INIT_ARRAY, DT_INIT_ARRAYSZ]

/-- The initialisers of a process, in the terms of its dynamic section `entries` (those before
`DT_NULL`): the function at `l_addr + d_ptr` of the last `DT_INIT` entry unless that address is
0, then entries `0 .. d_val / 8 - 1` of the array at `l_addr + d_ptr` of the last `DT_INIT_ARRAY`
entry, with `d_val` that of the last `DT_INIT_ARRAYSZ` entry. -/
def expectedInits (lAddr : UInt64) (mem : UInt64 → UInt64) (entries : List Dyn) : List UInt64 :=
  (match lastWith DT_INIT entries with
    | some p => if lAddr + p = 0 then [] else [lAddr + p]
    | none => []) ++
  (match lastWith DT_INIT_ARRAY entries, lastWith DT_INIT_ARRAYSZ entries with
    | some p, some d => (List.range (d.toNat / 8)).map fun i => mem (lAddr + p + 8 * i.toUInt64)
    | _, _ => [])

/-- On a well-formed section whose array size fits the `unsigned int` the code keeps it in, the
initialisers `CallInit` computes are `expectedInits`. -/
theorem inits_eq_expectedInits (e : InitEnv) {entries : List Dyn} {v : UInt64}
    (hnull : ∀ dyn ∈ entries, dyn.d_tag ≠ DT_NULL) (hsec : e.dynamic = entries ++ [⟨DT_NULL, v⟩])
    (hsz : lastWith DT_INIT_ARRAYSZ entries ≠ none → lastWith DT_INIT_ARRAY entries ≠ none)
    (hval : ∀ d, lastWith DT_INIT_ARRAYSZ entries = some d → d.toNat / 8 < 4294967296) :
    e.inits = expectedInits e.lAddr e.mem entries := by
  rw [InitEnv.inits, hsec, scanDynamic_append_null _ hnull, foldl_dynStep, initCalls, expectedInits]
  congr 1
  · cases lastWith DT_INIT entries <;> simp [eq_comm]
  · rcases ha : lastWith DT_INIT_ARRAY entries with _ | p <;>
      rcases hd : lastWith DT_INIT_ARRAYSZ entries with _ | d
    · rfl
    · simp [ha, hd] at hsz
    · rfl
    · have hsize : (d / 8).toUInt32.toNat = d.toNat / 8 := by
        have hmod : (d / 8).toUInt32.toNat = (d / 8).toNat % 4294967296 := rfl
        rw [hmod, UInt64.toNat_div]
        exact Nat.mod_eq_of_lt (hval d hd)
      simp [hsize]

/-- The code keeps the array size modulo `2^32`: a `DT_INIT_ARRAYSZ` of `8 * 2^32` bytes yields
no array call. -/
theorem inits_arraySize_wraps :
    initCalls (fun _ => 1) (scanDynamic 0 [⟨DT_INIT_ARRAY, 4096⟩, ⟨DT_INIT_ARRAYSZ, 34359738368⟩,
      ⟨DT_NULL, 0⟩] ⟨0, 0, 0⟩) = [] := by
  decide

/-- For every well-formed dynamic section whose array size fits an `unsigned int`, every load
offset and every sequence of `CallInit` calls of a process, re-entrant calls from initialisers
included: the run exists, and the initialisers it calls are exactly `expectedInits`, each once,
in order, with the arguments of the first call; no later call runs one. -/
theorem callInit_initializers (e : InitEnv) (entries : List Dyn) (v : UInt64)
    (hnull : ∀ dyn ∈ entries, dyn.d_tag ≠ DT_NULL) (hsec : e.dynamic = entries ++ [⟨DT_NULL, v⟩])
    (hsz : lastWith DT_INIT_ARRAYSZ entries ≠ none → lastWith DT_INIT_ARRAY entries ≠ none)
    (hval : ∀ d, lastWith DT_INIT_ARRAYSZ entries = some d → d.toNat / 8 < 4294967296)
    (first : InitArgs) (later : List InitArgs) :
    (∃ s, CallInitSeq e (first :: later) .initial s) ∧
    ∀ s, CallInitSeq e (first :: later) .initial s →
      s.calls = (expectedInits e.lAddr e.mem entries).map (·, first) :=
  ⟨CallInitSeq.exists _ _, fun _ h => by
    rw [h.calls_of_initial, inits_eq_expectedInits e hnull hsec hsz hval]⟩

/-- A position-independent executable with a `DT_INIT` function and a two-entry
`DT_INIT_ARRAY`, each of whose initialisers calls `CallInit` again. -/
def sampleInitEnv : InitEnv :=
  ⟨4194304, [⟨DT_INIT, 4096⟩, ⟨DT_INIT_ARRAY, 8192⟩, ⟨DT_INIT_ARRAYSZ, 16⟩, ⟨DT_NULL, 0⟩],
    fun a => a + 1, fun _ => [⟨1, 0, 0⟩]⟩

theorem callInit_initializers_sample :
    (∀ dyn ∈ [(⟨DT_INIT, 4096⟩ : Dyn), ⟨DT_INIT_ARRAY, 8192⟩, ⟨DT_INIT_ARRAYSZ, 16⟩],
      dyn.d_tag ≠ DT_NULL) ∧
    sampleInitEnv.dynamic =
      [(⟨DT_INIT, 4096⟩ : Dyn), ⟨DT_INIT_ARRAY, 8192⟩, ⟨DT_INIT_ARRAYSZ, 16⟩] ++ [⟨DT_NULL, 0⟩] ∧
    (∃ s, CallInitSeq sampleInitEnv [⟨1, 0, 0⟩, ⟨2, 0, 0⟩] .initial s) ∧
    ∀ s, CallInitSeq sampleInitEnv [⟨1, 0, 0⟩, ⟨2, 0, 0⟩] .initial s →
      s.calls = (expectedInits sampleInitEnv.lAddr sampleInitEnv.mem
        [⟨DT_INIT, 4096⟩, ⟨DT_INIT_ARRAY, 8192⟩, ⟨DT_INIT_ARRAYSZ, 16⟩]).map (·, ⟨1, 0, 0⟩) :=
  have hnull : ∀ dyn ∈ [(⟨DT_INIT, 4096⟩ : Dyn), ⟨DT_INIT_ARRAY, 8192⟩, ⟨DT_INIT_ARRAYSZ, 16⟩],
      dyn.d_tag ≠ DT_NULL := by decide
  ⟨hnull, rfl, callInit_initializers sampleInitEnv _ 0 hnull rfl (by decide)
    (fun d hd => by simp [lastWith, DT_INIT, DT_INIT_ARRAYSZ] at hd; subst hd; decide) _ _⟩

example : sampleInitEnv.inits = [4198400, 4202497, 4202505] := by decide

/-- A process whose dynamic section has one `DT_INIT` entry, at relocated address 0. -/
def zeroInitEnv : InitEnv := ⟨0, [⟨DT_INIT, 0⟩, ⟨DT_NULL, 0⟩], fun _ => 0, fun _ => []⟩

/-- The section of `zeroInitEnv` has a `DT_INIT` entry, yet no run of `CallInit` calls an
initialiser: the code takes the address 0 for "no `DT_INIT`". -/
theorem callInit_skips_init_at_zero :
    lastWith DT_INIT [⟨DT_INIT, 0⟩] = some 0 ∧
      ∀ s, CallInitSeq zeroInitEnv [⟨1, 0, 0⟩] .initial s → s.calls = [] :=
  ⟨by decide, fun _ h => by rw [h.calls_of_initial]; decide⟩

end CvCuda.Compat
