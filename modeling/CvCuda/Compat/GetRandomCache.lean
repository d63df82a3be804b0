import CvCuda.Compat.GetRandom

/-!
# The descriptor cache of `Compat_getrandom`

Reference: `src/util/Compat.c.in:250-304`.

What the cells `afdrandom_block` and `afdrandom_nonblock` guarantee over every interleaving of any
number of calls. Whatever descriptors `open` returns and whenever a weak compare-exchange fails, a
cell changes only while it holds 0 (`Sys.run_cell`); a cell that holds a descriptor holds an open
one, opened with `O_NONBLOCK` exactly when the cell is `afdrandom_nonblock`; a call about to read
from a non-zero descriptor reads its own cell's; and no call closes or replaces a descriptor that
was open before the calls (`compatGetrandom_cache_safe`). The cell is chosen by `GRND_NONBLOCK`
alone, so the device behind it is the first caller's: a `GRND_RANDOM` call can read from
`/dev/urandom` (`compatGetrandom_random_reads_urandom`).

The assertion `fdrandom != 0` and the bound of one descriptor per cell need more of the
environment. A spurious failure of the weak exchange sends the call to the assertion with
`fdrandom` 0, or with `NDEBUG` to `read(0, ...)`, and a descriptor 0 from `open` is installed as if
the cell were still empty (`compatGetrandom_weak_exchange_breaks`). When `open` never returns 0,
every descriptor the calls opened is in a cell or held by a call on its way to install or close it
(`compatGetrandom_no_leak`); when moreover the exchange never fails spuriously, no call fails the
assertion or reads from descriptor 0 (`compatGetrandom_assert_holds`).

## Shape of the proof

`Sys.Inv` gathers a fact about the cells, one about the descriptors open at the start, a
per-call invariant `ThreadOk`, and uniqueness of held descriptors. `Sys.Inv.step` takes one case
of `threadStep_effect` at a time; `Sys.Inv.set` does the bookkeeping of the list of calls, and
`ThreadOk.openFd`, `ThreadOk.setCell` and `ThreadOk.closeFd` carry the calls that do not move.
`Sys.Owned` and `Sys.Settled` are built the same way for the stronger environments.
-/

namespace CvCuda.Compat

/-! ## Positions in the list of calls -/

section Positions

variable {α : Type} {l : List α} {i j : Nat} {a b u : α}

/-- Replacing the element at `i` leaves the others where they were. -/
theorem getElem?_set_eq_some (hi : l[i]? = some a) (h : (l.set i b)[j]? = some u) :
    (j = i ∧ u = b) ∨ (j ≠ i ∧ l[j]? = some u) := by
  by_cases hj : j = i
  · subst hj
    rw [List.getElem?_set_self (List.getElem?_eq_some_iff.mp hi).1] at h
    exact .inl ⟨rfl, (Option.some.inj h).symm⟩
  · rw [List.getElem?_set_ne (Ne.symm hj)] at h
    exact .inr ⟨hj, h⟩

/-- An element of `l ++ [b]` is one of `l`, at the same position, or `b`. -/
theorem getElem?_concat_eq_some (h : (l ++ [b])[j]? = some u) : l[j]? = some u ∨ u = b := by
  rcases Nat.lt_or_ge j l.length with hlt | hge
  · rw [List.getElem?_append_left hlt] at h
    exact .inl h
  · rw [List.getElem?_append_right hge] at h
    cases hk : j - l.length with
    | zero => rw [hk] at h; exact .inr (Option.some.inj h).symm
    | succ k => rw [hk] at h; simp at h

/-- A property of every element survives replacing the one at `i` by one that has it. -/
theorem forall_getElem?_set {P : α → Prop} (hi : l[i]? = some a) (hb : P b)
    (hother : ∀ (j : Nat) u, j ≠ i → l[j]? = some u → P u) :
    ∀ (j : Nat) u, (l.set i b)[j]? = some u → P u := by
  intro j u h
  rcases getElem?_set_eq_some hi h with ⟨-, rfl⟩ | ⟨hj, h⟩
  · exact hb
  · exact hother j u hj h

/-- A property of every element survives appending one that has it. -/
theorem forall_getElem?_concat {P : α → Prop} (hl : ∀ (j : Nat) u, l[j]? = some u → P u)
    (hb : P b) : ∀ (j : Nat) u, (l ++ [b])[j]? = some u → P u := by
  intro j u h
  rcases getElem?_concat_eq_some h with h | rfl
  · exact hl j u h
  · exact hb

end Positions

/-! ## What a call holds -/

theorem Thread.held_eq_some {t : Thread} {fd : Int} :
    t.held = some fd ↔ t.pc = .cas fd ∨ ∃ r, t.pc = .close r fd := by
  unfold Thread.held
  split <;> simp_all

theorem Thread.fdrandom_of_read {t : Thread} {fd : Int} (h : t.pc = .read fd) :
    t.fdrandom = some fd := by
  simp [Thread.fdrandom, h]

/-- A call starting holds nothing and has settled on nothing. -/
theorem Thread.held_fdrandom_of_start {t : Thread} (h : t.pc = .getrandom ∨ t.pc = .entry) :
    t.held = none ∧ t.fdrandom = none := by
  rcases h with h | h <;> simp [Thread.held, Thread.fdrandom, h]

/-- Only a call at the assertion with `fdrandom` 0 stops there. -/
theorem threadStep_aborted (kernel : Kernel) (ndebug : Bool) (c : Choice) (p : Proc) (t : Thread)
    (h : (threadStep kernel ndebug c p t).2.pc = .aborted) :
    t.pc = .aborted ∨ t.fdrandom = some 0 := by
  obtain ⟨buffer, length, flags, pc, errno⟩ := t
  cases pc <;> simp only [threadStep] at h <;> (try split at h) <;> (try split at h) <;>
    simp_all [Thread.goto, Thread.fdrandom]

/-! ## The invariant -/

/-- A cell that holds a descriptor holds an open one, opened in the cell's blocking mode. -/
def CellsOpen (p : Proc) : Prop :=
  ∀ flags, p.cell flags ≠ 0 → ∃ path, p.fds (p.cell flags) = some ⟨path, randomOpenFlags flags⟩

/-- What the invariant says of one call `t` in `p`, for a process whose descriptor table was `fds₀`
before the calls: the descriptor the call holds is open on its device in its blocking mode, is no
cell's and was not open before; the non-zero `fdrandom` it has settled on is its cell's. -/
structure ThreadOk (fds₀ : Int → Option OpenFile) (p : Proc) (t : Thread) : Prop where
  held_open : ∀ fd, t.held = some fd →
    p.fds fd = some ⟨randomSource t.flags, randomOpenFlags t.flags⟩
  held_ne_cell : ∀ fd flags, t.held = some fd → p.cell flags ≠ 0 → fd ≠ p.cell flags
  held_fresh : ∀ fd, t.held = some fd → fds₀ fd = none
  settled_cell : ∀ r, t.fdrandom = some r → r ≠ 0 → r = p.cell t.flags

/-- The invariant of every reachable state: the cells are open, the descriptors open before the
calls are untouched, every call is `ThreadOk`, and no two calls hold the same descriptor. -/
structure Sys.Inv (fds₀ : Int → Option OpenFile) (s : Sys) : Prop where
  cells_open : CellsOpen s.proc
  initial_kept : ∀ fd, fds₀ fd ≠ none → s.proc.fds fd = fds₀ fd
  threads_ok : ∀ (i : Nat) t, s.threads[i]? = some t → ThreadOk fds₀ s.proc t
  held_unique : ∀ (i j : Nat) t u fd, s.threads[i]? = some t → s.threads[j]? = some u →
    t.held = some fd → u.held = some fd → i = j

namespace ThreadOk

variable {fds₀ : Int → Option OpenFile} {p : Proc} {t t' u : Thread}

/-- A call holding no descriptor is `ThreadOk` when its settled `fdrandom` is its cell's. -/
theorem of_held_none (h : t.held = none)
    (hr : ∀ r, t.fdrandom = some r → r ≠ 0 → r = p.cell t.flags) : ThreadOk fds₀ p t where
  held_open _ hfd := by simp [h] at hfd
  held_ne_cell _ _ hfd := by simp [h] at hfd
  held_fresh _ hfd := by simp [h] at hfd
  settled_cell := hr

/-- A call that keeps its flags and what it holds stays `ThreadOk` when its new `fdrandom` is its
cell's. -/
theorem of_held_eq (ht : ThreadOk fds₀ p t) (hheld : t'.held = t.held) (hflags : t'.flags = t.flags)
    (hr : ∀ r, t'.fdrandom = some r → r ≠ 0 → r = p.cell t.flags) : ThreadOk fds₀ p t' where
  held_open fd hfd := hflags ▸ ht.held_open fd (hheld ▸ hfd)
  held_ne_cell fd g hfd := ht.held_ne_cell fd g (hheld ▸ hfd)
  held_fresh fd hfd := ht.held_fresh fd (hheld ▸ hfd)
  settled_cell r hr' hr0 := hflags ▸ hr r hr' hr0

/-- A call stays `ThreadOk` when another opens a descriptor not in use. -/
theorem openFd (hu : ThreadOk fds₀ p u) {fd : Int} (hfd : p.fds fd = none) (f : OpenFile) :
    ThreadOk fds₀ (p.openFd fd f) u where
  held_open x hx := by
    have hne : x ≠ fd := by rintro rfl; simp [hu.held_open x hx] at hfd
    rw [Proc.openFd_fds, if_neg hne]
    exact hu.held_open x hx
  held_ne_cell x g hx := by simpa using hu.held_ne_cell x g hx
  held_fresh := hu.held_fresh
  settled_cell r hr := by simpa using hu.settled_cell r hr

/-- A call stays `ThreadOk` when another closes a descriptor it does not hold. -/
theorem closeFd (hu : ThreadOk fds₀ p u) {fd : Int} (hfd : u.held ≠ some fd) :
    ThreadOk fds₀ (p.closeFd fd) u where
  held_open x hx := by
    rw [Proc.closeFd_fds, if_neg (by rintro rfl; exact hfd hx)]
    exact hu.held_open x hx
  held_ne_cell x g hx := by simpa using hu.held_ne_cell x g hx
  held_fresh := hu.held_fresh
  settled_cell r hr := by simpa using hu.settled_cell r hr

/-- A call stays `ThreadOk` when another installs, in a cell holding 0, a descriptor it does not
hold. -/
theorem setCell (hu : ThreadOk fds₀ p u) {f : UInt32} {fd : Int} (h0 : p.cell f = 0)
    (hfd : u.held ≠ some fd) : ThreadOk fds₀ (p.setCell f fd) u where
  held_open x hx := by
    rw [Proc.setCell_fds]
    exact hu.held_open x hx
  held_ne_cell x g hx := by
    rw [Proc.setCell_cell]
    split
    · rintro - rfl; exact hfd hx
    · exact hu.held_ne_cell x g hx
  held_fresh := hu.held_fresh
  settled_cell r hr hr0 := by
    rw [Proc.setCell_cell]
    split
    · rename_i hg
      have hcell := hu.settled_cell r hr hr0
      rw [p.cell_congr hg, h0] at hcell
      exact absurd hcell hr0
    · exact hu.settled_cell r hr hr0

end ThreadOk

/-! ## Every step keeps the invariant -/

section Steps

variable {kernel : Kernel} {ndebug : Bool} {fds₀ : Int → Option OpenFile} {s : Sys}

theorem Sys.Inv.init : (Sys.start fds₀).Inv fds₀ where
  cells_open g hg := absurd (by unfold Proc.cell; split <;> rfl) hg
  initial_kept _ _ := rfl
  threads_ok _ _ h := by simp [Sys.start] at h
  held_unique _ _ _ _ _ h := by simp [Sys.start] at h

/-- A step of the call at `i`, from `t` to `t'`, keeps the invariant when the new state `p'` keeps
the cells open and the first descriptors, `t'` is `ThreadOk`, the other calls stay `ThreadOk`,
and `t'` holds only what `t` held or a descriptor that was not in use. -/
theorem Sys.Inv.set (hs : s.Inv fds₀) {i : Nat} {t t' : Thread} {p' : Proc}
    (hi : s.threads[i]? = some t) (hcells : CellsOpen p')
    (hinit : ∀ fd, fds₀ fd ≠ none → p'.fds fd = fds₀ fd) (hself : ThreadOk fds₀ p' t')
    (hother : ∀ u, ThreadOk fds₀ s.proc u → (∀ fd, t.held = some fd → u.held ≠ some fd) →
      ThreadOk fds₀ p' u)
    (hheld : ∀ fd, t'.held = some fd → t.held = some fd ∨ s.proc.fds fd = none) :
    Sys.Inv fds₀ ⟨p', s.threads.set i t'⟩ where
  cells_open := hcells
  initial_kept := hinit
  threads_ok := forall_getElem?_set hi hself fun j u hj hu =>
    hother u (hs.threads_ok j u hu) fun fd ht hu' => hj (hs.held_unique j i u t fd hu hi hu' ht)
  held_unique j k u v fd hu hv hu' hv' := by
    -- another call holding `fd` rules out `t'` holding it
    have other : ∀ (k : Nat) v, k ≠ i → s.threads[k]? = some v → v.held = some fd → t'.held ≠ some fd := by
      intro k v hk hv hv' ht'
      rcases hheld fd ht' with h | h
      · exact hk (hs.held_unique k i v t fd hv hi hv' h)
      · simp [(hs.threads_ok k v hv).held_open fd hv'] at h
    rcases getElem?_set_eq_some hi hu with ⟨hj, rfl⟩ | ⟨hj, hu₁⟩
    · rcases getElem?_set_eq_some hi hv with ⟨hk, -⟩ | ⟨hk, hv₁⟩
      · rw [hj, hk]
      · exact absurd hu' (other k v hk hv₁ hv')
    · rcases getElem?_set_eq_some hi hv with ⟨hk, rfl⟩ | ⟨hk, hv₁⟩
      · exact absurd hv' (other j u hj hu₁ hu')
      · exact hs.held_unique j k u v fd hu₁ hv₁ hu' hv'

/-- A step that leaves the shared state and what the call holds as they were keeps the invariant
when the call's new `fdrandom` is its cell's. -/
theorem Sys.Inv.set_of_held_eq (hs : s.Inv fds₀) {i : Nat} {t t' : Thread}
    (hi : s.threads[i]? = some t) (hheld : t'.held = t.held) (hflags : t'.flags = t.flags)
    (hr : ∀ r, t'.fdrandom = some r → r ≠ 0 → r = s.proc.cell t.flags) :
    Sys.Inv fds₀ ⟨s.proc, s.threads.set i t'⟩ :=
  hs.set hi hs.cells_open hs.initial_kept ((hs.threads_ok i t hi).of_held_eq hheld hflags hr)
    (fun _ hu _ => hu) (fun _ hfd => .inl (hheld ▸ hfd))

/-- One step of the call at `i`, meeting a choice `ChoiceOk` allows, keeps the invariant. -/
theorem Sys.Inv.step (hs : s.Inv fds₀) {i : Nat} {t : Thread} {c : Choice}
    (hi : s.threads[i]? = some t) (hc : ChoiceOk s.proc c) :
    Sys.Inv fds₀ ⟨(threadStep kernel ndebug c s.proc t).1,
      s.threads.set i (threadStep kernel ndebug c s.proc t).2⟩ := by
  have ht := hs.threads_ok i t hi
  have hflags := threadStep_flags kernel ndebug c s.proc t
  have he := threadStep_effect kernel ndebug c s.proc t
  generalize threadStep kernel ndebug c s.proc t = r at hflags he ⊢
  obtain ⟨p', t'⟩ := r
  cases he with
  | quiet hp h0 h1 h2 =>
    subst hp
    refine hs.set_of_held_eq hi (h1.trans h0.symm) hflags fun r hr => ?_
    rcases h2 with h2 | h2 <;> rw [h2] at hr
    · cases hr
    · exact ht.settled_cell r hr
  | load hp h0 h1 _ h2 =>
    subst hp
    exact hs.set_of_held_eq hi (h1.trans h0.symm) hflags fun r hr _ =>
      (Option.some.inj (h2 ▸ hr)).symm
  | openDev hp h0 hpos h1 h2 =>
    subst hp
    have hfree : s.proc.fds c.openRet = none := hc.resolve_left (by omega)
    have hfresh : fds₀ c.openRet = none :=
      Decidable.byContradiction fun h => h ((hs.initial_kept _ h).symm.trans hfree)
    have hcell : ∀ g, s.proc.cell g ≠ 0 → c.openRet ≠ s.proc.cell g := fun g hg heq => by
      obtain ⟨_, hp⟩ := hs.cells_open g hg
      rw [← heq, hfree] at hp
      cases hp
    have hself : ThreadOk fds₀
        (s.proc.openFd c.openRet ⟨randomSource t.flags, randomOpenFlags t.flags⟩) t' :=
      { held_open := fun fd hfd => by cases h1 ▸ hfd; rw [Proc.openFd_fds, if_pos rfl, hflags]
        held_ne_cell := fun fd g hfd => by cases h1 ▸ hfd; rw [Proc.openFd_cell]; exact hcell g
        held_fresh := fun fd hfd => by cases h1 ▸ hfd; exact hfresh
        settled_cell := fun r hr => by simp [h2] at hr }
    refine hs.set hi (fun g hg => ?_) (fun fd h => ?_) hself (fun u hu _ => hu.openFd hfree _)
      (fun fd hfd => by cases h1 ▸ hfd; exact .inr hfree)
    · rw [Proc.openFd_cell] at hg ⊢
      rw [Proc.openFd_fds, if_neg (hcell g hg).symm]
      exact hs.cells_open g hg
    · rw [Proc.openFd_fds, if_neg (by rintro rfl; exact h hfresh)]
      exact hs.initial_kept fd h
  | install fd hp h0 hcell _ h1 h2 =>
    subst hp
    have hopen := ht.held_open fd h0
    refine hs.set hi (fun g hg => ?_) (fun x h => by rw [Proc.setCell_fds]; exact hs.initial_kept x h)
      (.of_held_none h1 fun r hr _ => ?_) (fun u hu hne => hu.setCell hcell (hne fd h0))
      (fun x hx => by simp [h1] at hx)
    · rw [Proc.setCell_fds]
      rw [Proc.setCell_cell] at hg ⊢
      split
      · exact ⟨_, randomOpenFlags_congr ‹_› ▸ hopen⟩
      · rw [if_neg ‹_›] at hg
        exact hs.cells_open g hg
    · rw [h2] at hr
      rw [hflags, Proc.setCell_cell, if_pos rfl]
      exact (Option.some.inj hr).symm
  | fail fd hp h0 _ h1 h2 =>
    subst hp
    exact hs.set_of_held_eq hi (h1.trans h0.symm) hflags fun r hr _ =>
      (Option.some.inj (h2 ▸ hr)).symm
  | close fd hp h0 h1 h2 =>
    subst hp
    refine hs.set hi (fun g hg => ?_) (fun x h => ?_)
      (.of_held_none h1 fun r hr hr0 => ?_) (fun u hu hne => hu.closeFd (hne fd h0))
      (fun x hx => by simp [h1] at hx)
    · rw [Proc.closeFd_cell] at hg ⊢
      rw [Proc.closeFd_fds, if_neg (ht.held_ne_cell fd g h0 hg).symm]
      exact hs.cells_open g hg
    · rw [Proc.closeFd_fds, if_neg fun (hx : x = fd) => h (hx ▸ ht.held_fresh fd h0)]
      exact hs.initial_kept x h
    · rw [Proc.closeFd_cell, hflags]
      exact ht.settled_cell r (h2 ▸ hr) hr0

/-- Starting a call keeps the invariant. -/
theorem Sys.Inv.spawn (hs : s.Inv fds₀) {t : Thread} (ht : t.pc = .getrandom ∨ t.pc = .entry) :
    Sys.Inv fds₀ ⟨s.proc, s.threads ++ [t]⟩ := by
  obtain ⟨hheld, hfd⟩ := Thread.held_fdrandom_of_start ht
  refine ⟨hs.cells_open, hs.initial_kept,
    forall_getElem?_concat hs.threads_ok (.of_held_none hheld fun r hr => by simp [hfd] at hr), ?_⟩
  intro j k u v fd hu hv hu' hv'
  rcases getElem?_concat_eq_some hu with hu | rfl
  · rcases getElem?_concat_eq_some hv with hv | rfl
    · exact hs.held_unique j k u v fd hu hv hu' hv'
    · simp [hheld] at hv'
  · simp [hheld] at hu'

/-- Every event `ChoiceOk` allows keeps the invariant. -/
theorem Sys.Inv.next (hs : s.Inv fds₀) {ev : Event} (hev : s.Allows ChoiceOk ev) :
    (s.next kernel ndebug ev).Inv fds₀ := by
  cases ev with
  | spawn t => exact hs.spawn hev
  | step i c =>
    simp only [Sys.next]
    split
    · exact hs.step ‹_› hev.2
    · exact hs

theorem Reachable.inv (hs : Reachable kernel ndebug ChoiceOk fds₀ s) : s.Inv fds₀ := by
  induction hs with
  | init => exact .init
  | next _ hev ih => exact ih.next hev

/-- A cell that holds a descriptor keeps it, whatever event comes. -/
theorem Sys.next_cell (s : Sys) (ev : Event) {flags : UInt32} (h : s.proc.cell flags ≠ 0) :
    (s.next kernel ndebug ev).proc.cell flags = s.proc.cell flags := by
  cases ev with
  | spawn t => rfl
  | step i c =>
    simp only [Sys.next]
    split
    · rename_i t _
      have he := threadStep_effect kernel ndebug c s.proc t
      generalize threadStep kernel ndebug c s.proc t = r at he ⊢
      obtain ⟨p', t'⟩ := r
      cases he with
      | install fd hp _ h0 =>
        subst hp
        rw [Proc.setCell_cell, if_neg]
        intro hm
        rw [s.proc.cell_congr hm, h0] at h
        exact h rfl
      | quiet hp | load hp | fail _ hp => subst hp; rfl
      | openDev hp | close _ hp => subst hp; simp
    · rfl

/-- A cell that holds a descriptor keeps it over any run: each cell changes at most once, from 0. -/
theorem Sys.run_cell (s : Sys) (evs : List Event) {flags : UInt32} (h : s.proc.cell flags ≠ 0) :
    (s.run kernel ndebug evs).proc.cell flags = s.proc.cell flags := by
  induction evs generalizing s with
  | nil => rfl
  | cons ev evs ih =>
    have hn : (s.next kernel ndebug ev).proc.cell flags = s.proc.cell flags := s.next_cell ev h
    rw [Sys.run_cons, ih _ (hn ▸ h), hn]

end Steps

/-- Once descriptor 3 is in `afdrandom_block`, it stays there whatever calls follow. -/
theorem Sys.run_cell_three :
    (⟨⟨3, 0, fun _ => none⟩, []⟩ : Sys).proc.cell 0 ≠ 0 ∧
    ((⟨⟨3, 0, fun _ => none⟩, []⟩ : Sys).run (fun _ _ _ => .err ENOSYS) false
        [.spawn ⟨0, 16, 0, .entry, 0⟩, .step 0 ⟨5, 0, false, .ok 16⟩]).proc.cell 0 =
      (⟨⟨3, 0, fun _ => none⟩, []⟩ : Sys).proc.cell 0 :=
  ⟨by decide, Sys.run_cell _ _ (by decide)⟩

/-! ## Environments -/

/-- The choices of an environment whose `open` never returns descriptor 0. -/
def OpensNonzero (p : Proc) (c : Choice) : Prop := ChoiceOk p c ∧ c.openRet ≠ 0

/-- The choices of an environment whose `open` never returns 0 and whose compare-exchange never
fails spuriously. -/
def StrongChoice (p : Proc) (c : Choice) : Prop := OpensNonzero p c ∧ c.spurious = false

instance (p : Proc) (c : Choice) : Decidable (OpensNonzero p c) :=
  inferInstanceAs (Decidable (_ ∧ _))

instance (p : Proc) (c : Choice) : Decidable (StrongChoice p c) :=
  inferInstanceAs (Decidable (_ ∧ _))

/-- A descriptor table with the standard streams 0, 1 and 2 open on a terminal. -/
def stdFds (fd : Int) : Option OpenFile := if 0 ≤ fd ∧ fd ≤ 2 then some ⟨"/dev/tty", 2⟩ else none

/-- A kernel older than 3.17, without `getrandom`. -/
def enosysKernel : Kernel := fun _ _ _ => .err ENOSYS

/-- A choice where `open` returns `fd` (fails, for a negative `fd`), the exchange does not fail
spuriously, and `read` fills 16 bytes. -/
def openChoice (fd : Int) : Choice := ⟨fd, 0, false, .ok 16⟩

/-! ## What every run guarantees -/

section Runs

variable {kernel : Kernel} {ndebug : Bool} {fds₀ : Int → Option OpenFile} {s : Sys}

/-- Over every interleaving of any number of calls, whatever descriptors `open` returns and
whenever a weak exchange fails: a cell that holds a descriptor holds an open one, opened with
`O_NONBLOCK` exactly when the cell is `afdrandom_nonblock`; a call about to read from a non-zero
descriptor reads its own cell's, which is open in the call's blocking mode; and the descriptors
open before the calls stay as they were. -/
theorem compatGetrandom_cache_safe (hs : Reachable kernel ndebug ChoiceOk fds₀ s) :
    CellsOpen s.proc ∧
    (∀ t ∈ s.threads, ∀ fd, t.pc = .read fd → fd ≠ 0 →
      fd = s.proc.cell t.flags ∧ ∃ path, s.proc.fds fd = some ⟨path, randomOpenFlags t.flags⟩) ∧
    (∀ fd, fds₀ fd ≠ none → s.proc.fds fd = fds₀ fd) := by
  have hi := hs.inv
  refine ⟨hi.cells_open, fun t ht fd hpc hfd => ?_, hi.initial_kept⟩
  obtain ⟨i, hti⟩ := List.mem_iff_getElem?.mp ht
  have hcell := (hi.threads_ok i t hti).settled_cell fd (Thread.fdrandom_of_read hpc) hfd
  exact ⟨hcell, hcell ▸ hi.cells_open _ (hcell ▸ hfd)⟩

end Runs

/-- One call with flags 0 runs to its end, opening `/dev/urandom` as descriptor 3; then a call
with `GRND_RANDOM` runs up to its `read`. -/
def urandomThenRandom : List Event :=
  [.spawn ⟨0, 16, 0, .entry, 0⟩, .step 0 (openChoice (-1)), .step 0 (openChoice (-1)),
    .step 0 (openChoice 3)] ++ List.replicate 3 (.step 0 (openChoice (-1))) ++
  [.spawn ⟨0, 16, GRND_RANDOM, .entry, 0⟩] ++ List.replicate 3 (.step 1 (openChoice (-1)))

/-- The state `urandomThenRandom` leads to. -/
def urandomThenRandomEnd : Sys := (Sys.start stdFds).run enosysKernel false urandomThenRandom

theorem compatGetrandom_cache_safe_urandomThenRandom :
    CellsOpen urandomThenRandomEnd.proc ∧
    (∀ t ∈ urandomThenRandomEnd.threads, ∀ fd, t.pc = .read fd → fd ≠ 0 →
      fd = urandomThenRandomEnd.proc.cell t.flags ∧
        ∃ path, urandomThenRandomEnd.proc.fds fd = some ⟨path, randomOpenFlags t.flags⟩) ∧
    (∀ fd, stdFds fd ≠ none → urandomThenRandomEnd.proc.fds fd = stdFds fd) :=
  compatGetrandom_cache_safe (Reachable.init.run (by decide))

/-- The cell is chosen by `GRND_NONBLOCK` alone, so what it holds was opened for the first caller's
`GRND_RANDOM` bit: after a call with flags 0 has installed `/dev/urandom` as descriptor 3, a call
with `GRND_RANDOM` reads from it, with a strong exchange and `open` never returning 0. -/
theorem compatGetrandom_random_reads_urandom :
    ∃ s, Reachable enosysKernel false StrongChoice stdFds s ∧
      ∃ t ∈ s.threads, t.flags = GRND_RANDOM ∧ t.pc = .read 3 ∧
        s.proc.fds 3 = some ⟨"/dev/urandom", O_RDONLY⟩ :=
  ⟨urandomThenRandomEnd, Reachable.init.run (by decide), by decide⟩

/-! ## With `open` never returning 0 -/

/-- Where the descriptors the calls opened are: no call holds descriptor 0, and each descriptor
still open that was not open before the calls is a cell's or held by a call. -/
structure Sys.Owned (fds₀ : Int → Option OpenFile) (s : Sys) : Prop where
  held_ne_zero : ∀ (i : Nat) t, s.threads[i]? = some t → ∀ fd, t.held = some fd → fd ≠ 0
  opened_owned : ∀ fd, s.proc.fds fd ≠ none → fds₀ fd = none →
    (∃ flags, s.proc.cell flags ≠ 0 ∧ fd = s.proc.cell flags) ∨
    ∃ (i : Nat) (t : Thread), s.threads[i]? = some t ∧ t.held = some fd

/-- A call is sound when it has not settled on 0 and has not stopped at the assertion. -/
def Thread.Sound (t : Thread) : Prop := (∀ r, t.fdrandom = some r → r ≠ 0) ∧ t.pc ≠ .aborted

/-- Every call is sound. -/
def Sys.Settled (s : Sys) : Prop := ∀ (i : Nat) t, s.threads[i]? = some t → t.Sound

section Strong

variable {kernel : Kernel} {ndebug : Bool} {fds₀ : Int → Option OpenFile} {s : Sys}

theorem Sys.Owned.init : (Sys.start fds₀).Owned fds₀ where
  held_ne_zero _ _ h := by simp [Sys.start] at h
  opened_owned _ h h0 := absurd h0 h

/-- A step of the call at `i`, from `t` to `t'`, keeps `Owned` when `t'` holds no 0, the non-zero
cells stay, a descriptor newly open is held by `t'`, and the descriptor `t` held, if still open, is
held by `t'` or in a cell. -/
theorem Sys.Owned.set (ho : s.Owned fds₀) {i : Nat} {t t' : Thread} {p' : Proc}
    (hi : s.threads[i]? = some t) (hself : ∀ fd, t'.held = some fd → fd ≠ 0)
    (hcells : ∀ g, s.proc.cell g ≠ 0 → p'.cell g = s.proc.cell g)
    (hopen : ∀ fd, p'.fds fd ≠ none → s.proc.fds fd ≠ none ∨ t'.held = some fd)
    (hmove : ∀ fd, t.held = some fd → p'.fds fd ≠ none →
      t'.held = some fd ∨ ∃ g, p'.cell g ≠ 0 ∧ fd = p'.cell g) :
    Sys.Owned fds₀ ⟨p', s.threads.set i t'⟩ where
  held_ne_zero := forall_getElem?_set hi hself fun j u _ hu => ho.held_ne_zero j u hu
  opened_owned fd hfd h0 := by
    have hat : (s.threads.set i t')[i]? = some t' :=
      List.getElem?_set_self (List.getElem?_eq_some_iff.mp hi).1
    rcases hopen fd hfd with hold | hheld
    · rcases ho.opened_owned fd hold h0 with ⟨g, hg, rfl⟩ | ⟨j, u, hu, hheld⟩
      · exact .inl ⟨g, by rwa [hcells g hg], by rw [hcells g hg]⟩
      · by_cases hj : j = i
        · subst hj
          rw [hi] at hu
          cases hu
          exact (hmove fd hheld hfd).elim (fun h => .inr ⟨j, t', hat, h⟩) .inl
        · exact .inr ⟨j, u, by rwa [List.getElem?_set_ne (Ne.symm hj)], hheld⟩
    · exact .inr ⟨i, t', hat, hheld⟩

/-- One step of the call at `i`, meeting a choice `OpensNonzero` allows, keeps `Owned`. -/
theorem Sys.Owned.step (ho : s.Owned fds₀) {i : Nat} {t : Thread} {c : Choice}
    (hi : s.threads[i]? = some t) (hc : OpensNonzero s.proc c) :
    Sys.Owned fds₀ ⟨(threadStep kernel ndebug c s.proc t).1,
      s.threads.set i (threadStep kernel ndebug c s.proc t).2⟩ := by
  have he := threadStep_effect kernel ndebug c s.proc t
  generalize threadStep kernel ndebug c s.proc t = r at he ⊢
  obtain ⟨p', t'⟩ := r
  cases he with
  | quiet hp h0 h1 _ | load hp h0 h1 _ _ =>
    subst hp
    exact ho.set hi (by simp [h1]) (fun _ _ => rfl) (fun _ h => .inl h) (by simp [h0])
  | openDev hp h0 _ h1 _ =>
    subst hp
    refine ho.set hi (fun fd hfd => by cases h1 ▸ hfd; exact hc.2) (fun _ _ => rfl)
      (fun fd hfd => ?_) (by simp [h0])
    by_cases hx : fd = c.openRet
    · exact .inr (hx ▸ h1)
    · rw [Proc.openFd_fds, if_neg hx] at hfd
      exact .inl hfd
  | install fd hp h0 hcell _ h1 _ =>
    subst hp
    refine ho.set hi (by simp [h1]) (fun g hg => ?_) (fun _ h => .inl (by rwa [Proc.setCell_fds] at h))
      (fun x hx _ => .inr ⟨t.flags, ?_⟩)
    · rw [Proc.setCell_cell, if_neg]
      intro hm
      rw [s.proc.cell_congr hm, hcell] at hg
      exact hg rfl
    · cases h0 ▸ hx
      rw [Proc.setCell_cell, if_pos rfl]
      exact ⟨ho.held_ne_zero i t hi fd h0, rfl⟩
  | fail fd hp h0 _ h1 _ =>
    subst hp
    exact ho.set hi (fun x hx => ho.held_ne_zero i t hi x (h0.trans (h1.symm.trans hx)))
      (fun _ _ => rfl) (fun _ h => .inl h) (fun x hx _ => .inl (h1.trans (h0.symm.trans hx)))
  | close fd hp h0 h1 _ =>
    subst hp
    refine ho.set hi (by simp [h1]) (fun _ _ => rfl) (fun x hx => .inl fun h => hx ?_)
      (fun x hx hopen => absurd ?_ hopen)
    · simp [h]
    · cases h0 ▸ hx
      simp

/-- Starting a call keeps `Owned`. -/
theorem Sys.Owned.spawn (ho : s.Owned fds₀) {t : Thread} (ht : t.pc = .getrandom ∨ t.pc = .entry) :
    Sys.Owned fds₀ ⟨s.proc, s.threads ++ [t]⟩ where
  held_ne_zero := forall_getElem?_concat ho.held_ne_zero
    (by simp [(Thread.held_fdrandom_of_start ht).1])
  opened_owned fd h h0 := (ho.opened_owned fd h h0).imp_right fun ⟨j, u, hu, hh⟩ =>
    ⟨j, u, by rwa [List.getElem?_append_left (List.getElem?_eq_some_iff.mp hu).1], hh⟩

theorem Sys.Owned.next (ho : s.Owned fds₀) {ev : Event} (hev : s.Allows OpensNonzero ev) :
    (s.next kernel ndebug ev).Owned fds₀ := by
  cases ev with
  | spawn t => exact ho.spawn hev
  | step i c =>
    simp only [Sys.next]
    split
    · exact ho.step ‹_› hev.2
    · exact ho

theorem Reachable.owned (hs : Reachable kernel ndebug OpensNonzero fds₀ s) : s.Owned fds₀ := by
  induction hs with
  | init => exact .init
  | next _ hev ih => exact ih.next hev

/-- One step of the call at `i`, meeting a choice `StrongChoice` allows, keeps every call sound. -/
theorem Sys.Settled.step (hset : s.Settled) (ho : s.Owned fds₀) {i : Nat} {t : Thread}
    {c : Choice} (hi : s.threads[i]? = some t) (hc : StrongChoice s.proc c) :
    Sys.Settled ⟨(threadStep kernel ndebug c s.proc t).1,
      s.threads.set i (threadStep kernel ndebug c s.proc t).2⟩ := by
  obtain ⟨hr, hab⟩ := hset i t hi
  have hstop := threadStep_aborted kernel ndebug c s.proc t
  have he := threadStep_effect kernel ndebug c s.proc t
  generalize threadStep kernel ndebug c s.proc t = r at hstop he ⊢
  obtain ⟨p', t'⟩ := r
  refine forall_getElem?_set hi ⟨fun x hx => ?_, fun h => (hstop h).elim hab (hr 0 · rfl)⟩
    fun j u _ hu => hset j u hu
  cases he with
  | quiet _ _ _ h2 =>
    rcases h2 with h2 | h2 <;> rw [h2] at hx
    · cases hx
    · exact hr x hx
  | load _ _ _ hne h2 => cases h2 ▸ hx; exact hne
  | openDev _ _ _ _ h2 => simp [h2] at hx
  | install fd _ h0 _ _ _ h2 => cases h2 ▸ hx; exact ho.held_ne_zero i t hi _ h0
  | fail fd _ _ hcond _ h2 => cases h2 ▸ hx; exact hcond.resolve_right (by simp [hc.2])
  | close fd _ _ _ h2 => exact hr x (h2 ▸ hx)

theorem Sys.Settled.next (hset : s.Settled) (ho : s.Owned fds₀) {ev : Event}
    (hev : s.Allows StrongChoice ev) : (s.next kernel ndebug ev).Settled := by
  cases ev with
  | spawn t =>
    obtain ⟨hheld, hfd⟩ := Thread.held_fdrandom_of_start hev
    refine forall_getElem?_concat hset ⟨fun r hr => by simp [hfd] at hr, ?_⟩
    rcases hev with h | h <;> simp [h]
  | step i c =>
    simp only [Sys.next]
    split
    · exact hset.step ho ‹_› hev.2
    · exact hset

theorem Reachable.settled (hs : Reachable kernel ndebug StrongChoice fds₀ s) : s.Settled := by
  induction hs with
  | init => intro _ _ h; simp [Sys.start] at h
  | next hprev hev ih => exact ih.next (hprev.mono fun _ _ h => h.1).owned hev

/-- When `open` never returns 0, every descriptor the calls opened that is still open is a cell's
or held by a call between its `open` and its exchange or `close`: once no call is there, at most
one descriptor per cell is open besides those open before the calls. -/
theorem compatGetrandom_no_leak (hs : Reachable kernel ndebug OpensNonzero fds₀ s) :
    ∀ fd, s.proc.fds fd ≠ none → fds₀ fd = none →
      (∃ flags, s.proc.cell flags ≠ 0 ∧ fd = s.proc.cell flags) ∨
      ∃ t ∈ s.threads, t.pc = .cas fd ∨ ∃ r, t.pc = .close r fd := fun fd hfd h0 =>
  (hs.owned.opened_owned fd hfd h0).imp_right fun ⟨_, t, hi, hheld⟩ =>
    ⟨t, List.getElem?_mem hi, Thread.held_eq_some.mp hheld⟩

/-- When moreover the exchange never fails spuriously, no call stops at the assertion, and every
call about to read reads from its cell's descriptor, never from 0. -/
theorem compatGetrandom_assert_holds (hs : Reachable kernel ndebug StrongChoice fds₀ s) :
    ∀ t ∈ s.threads, t.pc ≠ .aborted ∧ ∀ fd, t.pc = .read fd → fd ≠ 0 ∧ fd = s.proc.cell t.flags := by
  intro t ht
  obtain ⟨i, hi⟩ := List.mem_iff_getElem?.mp ht
  obtain ⟨hr, hab⟩ := hs.settled i t hi
  refine ⟨hab, fun fd hfd => ⟨hr fd (Thread.fdrandom_of_read hfd), ?_⟩⟩
  exact ((hs.mono fun _ _ h => h.1.1).inv.threads_ok i t hi).settled_cell fd
    (Thread.fdrandom_of_read hfd) (hr fd (Thread.fdrandom_of_read hfd))

end Strong

/-- The `GRND_RANDOM` call of `urandomThenRandom`, at its `read(3, ...)`, passed the assertion. -/
theorem compatGetrandom_assert_holds_urandomThenRandom :
    (⟨0, 16, GRND_RANDOM, .read 3, 0⟩ : Thread) ∈ urandomThenRandomEnd.threads ∧
    (Pc.read 3 ≠ .aborted ∧
      ∀ fd, Pc.read 3 = .read fd → fd ≠ 0 ∧ fd = urandomThenRandomEnd.proc.cell GRND_RANDOM) :=
  ⟨by decide, compatGetrandom_assert_holds (Reachable.init.run
    (show Sys.AllowsRun enosysKernel false StrongChoice (Sys.start stdFds) urandomThenRandom by
      decide)) ⟨0, 16, GRND_RANDOM, .read 3, 0⟩ (by decide)⟩

/-- Descriptor 3, opened by `urandomThenRandom`, is a cell's or held by a call. -/
theorem compatGetrandom_no_leak_urandomThenRandom :
    (urandomThenRandomEnd.proc.fds 3 ≠ none ∧ stdFds 3 = none) ∧
    ((∃ flags, urandomThenRandomEnd.proc.cell flags ≠ 0 ∧ 3 = urandomThenRandomEnd.proc.cell flags) ∨
      ∃ t ∈ urandomThenRandomEnd.threads, t.pc = .cas 3 ∨ ∃ r, t.pc = .close r 3) :=
  ⟨⟨by decide, by decide⟩,
    compatGetrandom_no_leak (Reachable.init.run (by decide)) 3 (by decide) (by decide)⟩

/-- A choice where the weak exchange fails spuriously. -/
def spuriousChoice : Choice := ⟨-1, 0, true, .ok 16⟩

/-- One call with flags 0: `open` returns 3, the exchange fails spuriously, and the call closes 3,
reaches the assertion with `fdrandom` 0 and goes past it. -/
def spuriousRun : List Event :=
  [.spawn ⟨0, 16, 0, .entry, 0⟩, .step 0 (openChoice (-1)), .step 0 (openChoice (-1)),
    .step 0 (openChoice 3), .step 0 spuriousChoice, .step 0 (openChoice (-1)),
    .step 0 (openChoice (-1))]

/-- The state `spuriousRun` leads to, with `assert` compiled in or out. -/
def spuriousRunEnd (ndebug : Bool) : Sys := (Sys.start stdFds).run enosysKernel ndebug spuriousRun

/-- A descriptor table with standard input closed. -/
def stdinClosedFds (fd : Int) : Option OpenFile :=
  if fd = 1 ∨ fd = 2 then some ⟨"/dev/tty", 2⟩ else none

/-- Two calls with flags 0, one after the other, with standard input closed: `open` gives the first
descriptor 0, which it installs in place of the 0 the cell held, so the second opens again and
installs 3. -/
def zeroFdRun : List Event :=
  [.spawn ⟨0, 16, 0, .entry, 0⟩, .step 0 (openChoice (-1)), .step 0 (openChoice (-1)),
    .step 0 (openChoice 0)] ++ List.replicate 3 (.step 0 (openChoice (-1))) ++
  [.spawn ⟨0, 16, 0, .entry, 0⟩, .step 1 (openChoice (-1)), .step 1 (openChoice (-1)),
    .step 1 (openChoice 3)] ++ List.replicate 3 (.step 1 (openChoice (-1)))

/-- The weak exchange and the 0 sentinel break the assertion and the bound of one descriptor per
cell. A spurious failure sends a call to `assert(fdrandom != 0)` with `fdrandom` 0, or with
`NDEBUG` to `read(0, ...)` on standard input, although `open` never returned 0. A descriptor 0
from `open` is installed as if the cell were still empty, so after two calls have returned, two
descriptors opened on `/dev/urandom` for the same cell stay open. -/
theorem compatGetrandom_weak_exchange_breaks :
    (∃ s, Reachable enosysKernel false OpensNonzero stdFds s ∧ ∃ t ∈ s.threads, t.pc = .aborted) ∧
    (∃ s, Reachable enosysKernel true OpensNonzero stdFds s ∧
      ∃ t ∈ s.threads, t.pc = .read 0 ∧ s.proc.fds 0 = some ⟨"/dev/tty", 2⟩) ∧
    (∃ s, Reachable enosysKernel true ChoiceOk stdinClosedFds s ∧ s.threads.length = 2 ∧
      (∀ t ∈ s.threads, t.pc = .done 16) ∧
      stdinClosedFds 0 = none ∧ s.proc.fds 0 = some ⟨"/dev/urandom", O_RDONLY⟩ ∧
      stdinClosedFds 3 = none ∧ s.proc.fds 3 = some ⟨"/dev/urandom", O_RDONLY⟩) :=
  ⟨⟨spuriousRunEnd false, Reachable.init.run (by decide), by decide⟩,
    ⟨spuriousRunEnd true, Reachable.init.run (by decide), by decide⟩,
    ⟨(Sys.start stdinClosedFds).run enosysKernel true zeroFdRun, Reachable.init.run (by decide),
      by decide⟩⟩

end CvCuda.Compat
