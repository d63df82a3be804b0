import CvCuda.Compat.GetRandomCache

/-!
# Every call of `getrandom` returns

Reference: `src/util/Compat.c.in:253-323`.

Neither `getrandom` nor `Compat_getrandom` has a loop, and no step of a call waits for another
call: a failed compare-exchange does not retry but closes its descriptor and uses the one
installed. A call therefore goes through at most eight atomic steps (the system call, the flags
check, the load, `open`, the exchange, `close`, the assertion and `read`) before it returns or
aborts, whatever the other calls do between its steps: the function is wait-free.

## Shape of the proof

`Pc.rank` bounds the steps a call still takes. Every step of an unfinished call lowers it
(`threadStep_rank_lt`), a finished call no longer moves (`threadStep_of_finished`), and an event
of another call leaves the call as it is (`Sys.next_getElem?_of_ne`). `Sys.run_rank` sums these
over a run: the rank falls by the number of the call's own steps until it is finished, which
gives `compatGetrandom_wait_free`.
-/

namespace CvCuda.Compat

/-! ## Steps left -/

/-- The most steps a call at `pc` still takes before it returns or aborts. -/
def Pc.rank : Pc → Nat
  | .getrandom => 8
  | .entry => 7
  | .load => 6
  | .openDev => 5
  | .cas _ => 4
  | .close _ _ => 3
  | .check _ => 2
  | .read _ => 1
  | .done _ => 0
  | .aborted => 0

/-- Whether a call at `pc` has returned or aborted. -/
def Pc.Finished (pc : Pc) : Prop := (∃ ret, pc = .done ret) ∨ pc = .aborted

theorem Pc.rank_le (pc : Pc) : pc.rank ≤ 8 := by
  cases pc <;> simp [Pc.rank]

theorem Pc.rank_eq_zero_iff {pc : Pc} : pc.rank = 0 ↔ pc.Finished := by
  cases pc <;> simp [Pc.rank, Pc.Finished]

theorem threadStep_of_finished (kernel : Kernel) (ndebug : Bool) (c : Choice) (p : Proc)
    {t : Thread} (h : t.pc.Finished) : (threadStep kernel ndebug c p t).2 = t := by
  rcases h with ⟨ret, h⟩ | h <;> simp [threadStep, h]

/-- A step of an unfinished call brings it closer to its return. -/
theorem threadStep_rank_lt (kernel : Kernel) (ndebug : Bool) (c : Choice) (p : Proc) {t : Thread}
    (h : ¬t.pc.Finished) : (threadStep kernel ndebug c p t).2.pc.rank < t.pc.rank := by
  rcases t with ⟨buffer, length, flags, pc, errno⟩
  cases pc with
  | done ret => exact absurd (.inl ⟨ret, rfl⟩) h
  | aborted => exact absurd (.inr rfl) h
  | read r => simp only [threadStep]; split <;> simp [Thread.goto, Pc.rank]
  | _ => simp only [threadStep]; (try split_ifs) <;> simp [Thread.goto, Pc.rank]

/-! ## Runs -/

/-- Whether `ev` is a step of the call at position `i`. -/
def Event.isStepOf (i : Nat) : Event → Bool
  | .spawn _ => false
  | .step j _ => j == i

theorem Event.eq_step_of_isStepOf {ev : Event} {i : Nat} (h : ev.isStepOf i = true) :
    ∃ c, ev = .step i c := by
  cases ev with
  | spawn _ => simp [Event.isStepOf] at h
  | step j c => exact ⟨c, by rw [show j = i by simpa [Event.isStepOf] using h]⟩

section Runs

variable {kernel : Kernel} {ndebug : Bool}

/-- An event that is not a step of the call at `i` leaves that call as it is. -/
theorem Sys.next_getElem?_of_ne (s : Sys) {ev : Event} {i : Nat} {t : Thread}
    (hev : ev.isStepOf i = false) (h : s.threads[i]? = some t) :
    (s.next kernel ndebug ev).threads[i]? = some t := by
  cases ev with
  | spawn u => simp [Sys.next, List.getElem?_append_left (List.getElem?_eq_some_iff.mp h).1, h]
  | step j c =>
    have hj : j ≠ i := by simpa [Event.isStepOf] using hev
    simp only [Sys.next]
    split
    · rw [List.getElem?_set_ne hj, h]
    · exact h

/-- A step of the call at `i` moves it by `threadStep`. -/
theorem Sys.next_step_getElem? (s : Sys) {i : Nat} {c : Choice} {t : Thread}
    (h : s.threads[i]? = some t) :
    (s.next kernel ndebug (.step i c)).threads[i]? =
      some (threadStep kernel ndebug c s.proc t).2 := by
  simp only [Sys.next, h]
  exact List.getElem?_set_self (List.getElem?_eq_some_iff.mp h).1

/-- Over a run the call at `i` stays in place, and until it is finished its rank falls by the
number of its own steps. -/
theorem Sys.run_rank (evs : List Event) (s : Sys) {i : Nat} {t : Thread}
    (h : s.threads[i]? = some t) :
    ∃ t', (s.run kernel ndebug evs).threads[i]? = some t' ∧
      (t'.pc.Finished ∨ t'.pc.rank + (evs.filter (Event.isStepOf i)).length ≤ t.pc.rank) := by
  induction evs generalizing s t with
  | nil => exact ⟨t, h, .inr (by simp)⟩
  | cons ev evs ih =>
    rw [Sys.run_cons]
    cases hev : ev.isStepOf i with
    | false =>
      obtain ⟨t', ht', hfin⟩ := ih _ (Sys.next_getElem?_of_ne s hev h)
      exact ⟨t', ht', by simpa [List.filter_cons, hev] using hfin⟩
    | true =>
      obtain ⟨c, rfl⟩ := Event.eq_step_of_isStepOf hev
      obtain ⟨t', ht', hfin⟩ := ih _ (Sys.next_step_getElem? s h)
      refine ⟨t', ht', ?_⟩
      simp only [List.filter_cons, hev, if_true, List.length_cons]
      by_cases hdone : t.pc.Finished
      · rw [threadStep_of_finished kernel ndebug c s.proc hdone] at hfin
        have h0 := Pc.rank_eq_zero_iff.mpr hdone
        exact .inl (hfin.elim id fun hle => Pc.rank_eq_zero_iff.mp (by omega))
      · have hlt := threadStep_rank_lt kernel ndebug c s.proc hdone
        exact hfin.imp_right fun hle => by omega

end Runs

/-- `Compat_getrandom` is wait-free: a call that takes eight steps of its own in any interleaving
with any other calls, from any state, has returned or aborted by then. -/
theorem compatGetrandom_wait_free (kernel : Kernel) (ndebug : Bool) (s : Sys) (evs : List Event)
    (i : Nat) (t : Thread) (h : s.threads[i]? = some t)
    (hsteps : 8 ≤ (evs.filter (Event.isStepOf i)).length) :
    ∃ t', (s.run kernel ndebug evs).threads[i]? = some t' ∧
      ((∃ ret, t'.pc = .done ret) ∨ t'.pc = .aborted) := by
  obtain ⟨t', ht', hfin⟩ := Sys.run_rank evs s h
  refine ⟨t', ht', hfin.elim id fun hle => Pc.rank_eq_zero_iff.mp ?_⟩
  have h8 := t.pc.rank_le
  omega

/-- A call of `getrandom` for `GRND_RANDOM` on a kernel without the system call, stepped eight
times with nothing else running. -/
theorem compatGetrandom_wait_free_alone :
    (⟨⟨0, 0, stdFds⟩, [⟨0, 16, GRND_RANDOM, .getrandom, 0⟩]⟩ : Sys).threads[0]? =
        some ⟨0, 16, GRND_RANDOM, .getrandom, 0⟩ ∧
      8 ≤ ((List.replicate 8 (Event.step 0 (openChoice 3))).filter (Event.isStepOf 0)).length ∧
      ∃ t', ((⟨⟨0, 0, stdFds⟩, [⟨0, 16, GRND_RANDOM, .getrandom, 0⟩]⟩ : Sys).run enosysKernel false
          (List.replicate 8 (Event.step 0 (openChoice 3)))).threads[0]? = some t' ∧
        ((∃ ret, t'.pc = .done ret) ∨ t'.pc = .aborted) :=
  ⟨rfl, by decide, compatGetrandom_wait_free enosysKernel false _ _ 0 _ rfl (by decide)⟩

end CvCuda.Compat
