import Mathlib.Tactic.Common
import SidBridge.CoreAhbLite.Delivery

/-!
# No master is starved

A transfer that waits for a slave waits for the data phases of others.  Without locked transfers there are
at most three of them, one for each other master, because the arbiter of the slave takes turns.

* `NoLocks`, `ArbState.IsFree`, `isFree_run` — without locks the arbiter grants in every cycle it is asked;
* `asks_held` — a waiting master keeps asking;
* `readyCycle`, `ready_cycles_le_three` — the slave is ready three times at most before the transfer is
  taken;
* `HandsOver`, `HandsOver.held`, `HandsOver.started` — the transfer stays the one its stage hands over until
  its slave starts it;
* `no_starvation` — **the bound**, and that a slave that is ready again and again starts every transfer.
-/

namespace SidBridge.CoreAhbLite

/-- No master locks a transfer. -/
def NoLocks (inp : ℕ → MatrixIn) : Prop := ∀ n m, ((inp n).master m).phase.HMASTLOCK = false

/-- The states outside a locked sequence. -/
def ArbState.IsFree (s : ArbState) : Prop := ∀ n, s ≠ .lock n ∧ s ≠ .lockExtend n

theorem isFree_arbStep {s : ArbState} {i : ArbIn} (hs : s.IsFree)
    (hlock : ∀ m, i.GATEDHMASTLOCK m = false) : (arbStep s i).IsFree := by
  intro k
  cases s with
  | done n =>
    rw [arbStep, slaveArbiter_done]
    cases Sync.nextInTurn n i.MADDRSEL <;> cases hend : i.ADDRPHEND <;>
      simp [askingMaster, hlock, hend]
  | extend n => cases hend : i.ADDRPHEND <;> simp [arbStep, slaveArbiter, hend]
  | lock n => exact absurd rfl (hs n).1
  | lockExtend n => exact absurd rfl (hs n).2

/-- The cycles in which a slave is ready. -/
def readyCycle (inp : ℕ → MatrixIn) (s : SlotId) (k : ℕ) : Option ℕ :=
  if ((inp k).slave s).HREADYOUT then some k else none

/-- The stage of master `m` hands the transfer `phase` over to slot `s`: accepted in this cycle, or kept. -/
structure HandsOver (c : MatrixGenerics) (x : MatrixReg) (i : MatrixIn) (m : MasterId) (s : SlotId)
    (phase : AddrPhase) : Prop where
  goes : GoesOn c x i m
  asks : addrTargetOf c x i m = .slot s
  gated : gatedOf c x i m = phase

section Runs

variable {c : MatrixGenerics} {x : ℕ → MatrixReg} {inp : ℕ → MatrixIn} {m : MasterId} {s : SlotId}

section Locks

variable (hx : Sync.IsRun (matrixNext c) x inp) (hreset : x 0 = matrixReset) (hlock : NoLocks inp)

include hx hreset hlock

theorem regAddr_unlocked (m : MasterId) (n : ℕ) : ((x n).master m).regAddr.HMASTLOCK = false := by
  induction n with
  | zero =>
    rw [hreset]
    rfl
  | succ n ih =>
    rw [hx n]
    simp only [matrixNext, masterNext]
    split
    · exact hlock n m
    · exact ih

/-- No address phase that reaches an arbiter is locked. -/
theorem gated_unlocked (n : ℕ) (s : SlotId) (m : MasterId) :
    (arbIn (slaveStageIn c (x n) (inp n) s)).GATEDHMASTLOCK m = false := by
  simp only [arbIn, slaveStageIn]
  split
  · simp only [gated, pregated]
    split
    · exact hlock n m
    · exact regAddr_unlocked hx hreset hlock m n
  · rfl

theorem isFree_run (n : ℕ) (s : SlotId) : ((x n).slave s).arb.IsFree := by
  induction n with
  | zero =>
    rw [hreset]
    exact fun k => ⟨by simp [matrixReset, slaveReset, arbReset], by
      simp [matrixReset, slaveReset, arbReset]⟩
  | succ n ih =>
    rw [hx n]
    exact isFree_arbStep ih (gated_unlocked hx hreset hlock n s)

end Locks

variable (h : ∀ n, ConformsUpTo c x inp n)

include h

/-- **A waiting master keeps asking.** -/
theorem asks_held {a n : ℕ} (hen : c.slotEnable m s = true)
    (hasks : addrTargetOf c (x a) (inp a) m = .slot s)
    (hwait : ∀ k, k < n → ¬Takes c (x (a + k)) (inp (a + k)) m s) :
    addrTargetOf c (x (a + n)) (inp (a + n)) m = .slot s := by
  induction n with
  | zero => exact hasks
  | succ n ih =>
    have hbefore := ih fun k hk => hwait k (Nat.lt_succ_of_lt hk)
    have hinv := matrixInv_run (h (a + n))
    have hedge := (h (a + n + 1)).edge (a + n) (Nat.lt_succ_self _)
    show addrTargetOf c (x (a + n + 1)) (inp (a + n + 1)) m = .slot s
    rw [(h 0).isRun (a + n)]
    exact hinv.addrTargetOf_kept hedge hen hbefore (hwait n (Nat.lt_succ_self n))

/-- **Three turns at most.**  Without locks, a slave is ready in at most three cycles of a stretch in which
a transfer waits for it. -/
theorem ready_cycles_le_three (hlock : NoLocks inp) {a n : ℕ} (hen : c.slotEnable m s = true)
    (hasks : addrTargetOf c (x a) (inp a) m = .slot s)
    (hwait : ∀ k, k < n → ¬Takes c (x (a + k)) (inp (a + k)) m s) :
    (Sync.events (fun k => readyCycle inp s (a + k)) n).length ≤ 3 := by
  have hrun := (h 0).isRun
  have hunlocked := gated_unlocked hrun (h 0).reset hlock
  -- a granted master is at the end of its wait
  let wait : ℕ → ℕ := fun k =>
    if grantOf c (x (a + k)) (inp (a + k)) s = some m then 0 else ((x (a + k)).slave s).arb.wait m
  have hstart : wait 0 ≤ 3 := by
    show (if _ then 0 else _) ≤ 3
    split
    · exact Nat.zero_le 3
    · exact wait_le (by assumption)
  have hstep : ∀ k, k < n →
      wait (k + 1) + (readyCycle inp s (a + k)).toList.length ≤ wait k := by
    intro k hk
    have harb : ((x (a + (k + 1))).slave s).arb =
        arbStep ((x (a + k)).slave s).arb (arbIn (slaveStageIn c (x (a + k)) (inp (a + k)) s)) := by
      rw [← Nat.add_assoc, hrun (a + k)]
      rfl
    have hend : (arbIn (slaveStageIn c (x (a + k)) (inp (a + k)) s)).ADDRPHEND =
        ((inp (a + k)).slave s).HREADYOUT := intHREADYOUT_of_enabled hen
    have hmore : wait (k + 1) ≤ ((x (a + (k + 1))).slave s).arb.wait m := by
      show (if _ then 0 else _) ≤ _
      split
      · exact Nat.zero_le _
      · exact le_rfl
    by_cases hgrant : grantOf c (x (a + k)) (inp (a + k)) s = some m
    · have hbusy : ((inp (a + k)).slave s).HREADYOUT = false := by
        by_contra hready
        exact hwait k hk ⟨hgrant, by simpa using hready⟩
      have hext := next_extends_of_grant hgrant (hend.trans hbusy)
      rw [← harb] at hext
      have hgrant' : grantOf c (x (a + (k + 1))) (inp (a + (k + 1))) s = some m :=
        grant_of_extends hext _
      simp [wait, hgrant', readyCycle, hbusy]
    · have hsel := maddrsel_eq_true_iff.mpr
        ⟨hen, asks_held h hen hasks fun j hj => hwait j (Nat.lt_trans hj hk)⟩
      have hwaitstep := wait_step (hunlocked (a + k) s) hsel hgrant
      have hnow : wait k = ((x (a + k)).slave s).arb.wait m := if_neg hgrant
      have hone : (readyCycle inp s (a + k)).toList.length ≤
          (completed ((x (a + k)).slave s).arb
            (arbIn (slaveStageIn c (x (a + k)) (inp (a + k)) s))).toList.length := by
        cases hready : ((inp (a + k)).slave s).HREADYOUT with
        | false => simp [readyCycle, hready]
        | true =>
          have hsome := grant_isSome
            (fun j => (isFree_run hrun (h 0).reset hlock (a + k) s j).1)
            (hunlocked (a + k) s) hsel
          obtain ⟨j, hj⟩ := Option.isSome_iff_exists.mp hsome
          simp [readyCycle, completed, hend, hready, hj]
      rw [← harb] at hwaitstep
      omega
  have hsum := Sync.events_length_le_of_potential (e := fun k => readyCycle inp s (a + k))
    (φ := wait) hstep
  omega

/-- A transfer that is accepted or kept is the one its stage hands over. -/
theorem handsOver_of_waits {a : ℕ} {phase : AddrPhase}
    (hwaits : issued c (x a) (inp a) m = some (.slot s, phase) ∨
      pending c (x a) (inp a) m = [(.slot s, phase)]) :
    HandsOver c (x a) (inp a) m s phase := by
  rcases hwaits with hissue | hkept
  · obtain ⟨hs, -, hready, ht⟩ := (matrixInv_run (h a)).issued_eq_some_iff.mp hissue
    rw [Prod.mk.injEq] at ht
    exact ⟨Or.inr ⟨hs, hready⟩, ht.1.symm, ht.2.symm⟩
  · unfold pending at hkept
    split at hkept
    · rename_i hs
      rw [List.singleton_inj, Prod.mk.injEq] at hkept
      exact ⟨Or.inl hs, hkept.1, hkept.2⟩
    · cases hkept

/-- **A transfer keeps its place** until its slave takes it. -/
theorem HandsOver.held {a n : ℕ} {phase : AddrPhase} (hen : c.slotEnable m s = true)
    (hover : HandsOver c (x a) (inp a) m s phase)
    (hwait : ∀ k, k < n → ¬Takes c (x (a + k)) (inp (a + k)) m s) :
    HandsOver c (x (a + n)) (inp (a + n)) m s phase := by
  induction n with
  | zero => exact hover
  | succ n ih =>
    obtain ⟨hgoes, hasks, hphase⟩ := ih fun k hk => hwait k (Nat.lt_succ_of_lt hk)
    have hinv := matrixInv_run (h (a + n))
    have hedge := (h (a + n + 1)).edge (a + n) (Nat.lt_succ_self _)
    have hnot := hwait n (Nat.lt_succ_self n)
    -- what is not taken is kept, as it is
    have hs' := hinv.registered_next_iff.mpr ⟨hgoes, s, hen, hasks, hnot⟩
    have hkept := hinv.pending_next_of_waits hedge hen hasks hnot hs'
    rw [pending, if_pos hs', List.singleton_inj, Prod.mk.injEq, hasks, hphase] at hkept
    rw [← (h 0).isRun (a + n)] at hs' hkept
    exact ⟨Or.inl hs', hkept.1, hkept.2⟩

/-- **And then it is started**: the first time its slave takes an address phase of the master. -/
theorem HandsOver.started {a k : ℕ} {phase : AddrPhase} (hen : c.slotEnable m s = true)
    (hover : HandsOver c (x a) (inp a) m s phase)
    (htakes : Takes c (x (a + k)) (inp (a + k)) m s) :
    ∃ j, j ≤ k ∧ startedBy c (x (a + j)) (inp (a + j)) m s = some phase := by
  classical
  have hex : ∃ j, Takes c (x (a + j)) (inp (a + j)) m s := ⟨k, htakes⟩
  have hfirst := Nat.find_spec hex
  obtain ⟨hgoes, hasks, hphase⟩ :=
    hover.held h hen (n := Nat.find hex) fun j hj => Nat.find_min hex hj
  have hinv := matrixInv_run (h (a + Nat.find hex))
  exact ⟨Nat.find hex, Nat.find_min' hex htakes, hinv.startedBy_eq_some_iff.mpr
    ⟨hfirst, hinv.prev_of_takes hen hasks hgoes hfirst, hphase.symm⟩⟩

/-- **No starvation.**  Without locks, a transfer that its master sees accepted, or that its stage keeps, is
started by its slave, with its own address phase, by the fourth cycle in which the slave is ready; and it is
started, if the slave is ready again and again. -/
theorem no_starvation (hlock : NoLocks inp) {a : ℕ} {phase : AddrPhase}
    (hen : c.slotEnable m s = true)
    (hwaits : issued c (x a) (inp a) m = some (.slot s, phase) ∨
      pending c (x a) (inp a) m = [(.slot s, phase)]) :
    (∀ n, 3 < (Sync.events (fun k => readyCycle inp s (a + k)) n).length →
        ∃ k, k < n ∧ startedBy c (x (a + k)) (inp (a + k)) m s = some phase) ∧
      ((∀ k, ∃ j, k ≤ j ∧ ((inp j).slave s).HREADYOUT = true) →
        ∃ k, startedBy c (x (a + k)) (inp (a + k)) m s = some phase) := by
  have hover := handsOver_of_waits h hwaits
  have hbound : ∀ n, 3 < (Sync.events (fun k => readyCycle inp s (a + k)) n).length →
      ∃ k, k < n ∧ startedBy c (x (a + k)) (inp (a + k)) m s = some phase := by
    intro n hmany
    by_contra hno
    push Not at hno
    refine absurd (ready_cycles_le_three h hlock hen hover.asks fun k hk htakes => ?_)
      (Nat.not_le_of_lt hmany)
    obtain ⟨j, hj, hstart⟩ := hover.started h hen htakes
    exact hno j (Nat.lt_of_le_of_lt hj hk) hstart
  refine ⟨hbound, fun hoften => ?_⟩
  have hevents : ∀ k, ∃ j, k ≤ j ∧ (readyCycle inp s (a + j)).isSome = true := by
    intro k
    obtain ⟨j, hj, hready⟩ := hoften (a + k)
    refine ⟨j - a, by omega, ?_⟩
    rw [show a + (j - a) = j by omega, readyCycle, hready]
    rfl
  obtain ⟨n, hmany⟩ := Sync.exists_events_length_ge hevents 4
  obtain ⟨k, -, hstart⟩ := hbound n hmany
  exact ⟨k, hstart⟩

omit h in
/-- The third master of the rush has seen its read accepted in cycle 0, and is served. -/
theorem no_starvation_rush : ∃ k, startedBy sharedMatrix (rushRun (0 + k)) (rush (0 + k)) 2 0 =
    some { AddrPhase.zero with HTRANS := true } := by
  have hissue : issued sharedMatrix (rushRun 0) (rush 0) 2 =
      some (.slot 0, { AddrPhase.zero with HTRANS := true }) := by decide +kernel
  refine (no_starvation conformsUpTo_rushRun (fun n m => rfl) rfl (Or.inl hissue)).2 fun k => ?_
  exact ⟨k + 2, by omega, by simp [rush]⟩

end Runs

end SidBridge.CoreAhbLite
