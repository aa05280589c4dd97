import Mathlib.Tactic.Common
import SidBridge.SidPlayerDelivery

/-!
# What a stalled address does

The bridge starts an access at the first stalled address of a run, and is busy with it when the stall ends.
From there on the bus core and the bridge disagree about whose transfer is in progress.

* `secondStart` — the cycle in which the access the stalled address started is over;
* `Stalling`, `Keeping` — the master stage up to the end of the stall, and after it;
* `Stalling.next`, `Stalling.keeping`, `Keeping.next` — one cycle of each, and of the step from the first to
  the second;
* `stalled_started_twice` — **the bridge starts the same access twice**, and one start at least has no
  transfer behind it;
* `stalled_swallows` — **the next transfer of the processor is accepted and lost**, if the stall ends first.
-/

namespace SidBridge

open CoreAhbLite

/-- The cycle after the wait states of an access that starts in cycle `a`. -/
def secondStart (inp : ℕ → PlayerIn) (a : ℕ) : ℕ := a + (waitStates (player inp a).bridge + 1)

/-- Other address lines from the processor. -/
def PlayerIn.withPhase (i : PlayerIn) (p : AddrPhase) : PlayerIn :=
  { i with M0 := { i.M0 with phase := p } }

/-- In cycle `k` the stall of cycle `a` is not over, or just ends. -/
structure Stalling (inp : ℕ → PlayerIn) (a k : ℕ) : Prop where
  idle : ((player inp k).matrix.master masterM0).addrRegSM = .idle
  target : ((player inp k).matrix.master masterM0).target =
    ((player inp a).matrix.master masterM0).target
  phase : (inp k).M0.phase = (inp a).M0.phase
  owner : ∀ s, ((player inp k).matrix.master masterM0).target = .slot s →
    playerGenerics.slotEnable masterM0 s = true →
      ((player inp k).matrix.slave s).masterDataInProg = some masterM0

/-- In cycle `k` the stall is over, and the stage keeps the address of cycle `a`. -/
structure Keeping (inp : ℕ → PlayerIn) (a k : ℕ) : Prop where
  registered : ((player inp k).matrix.master masterM0).addrRegSM = .registered
  copy : ((player inp k).matrix.master masterM0).regAddr =
    { (inp a).M0.phase with HMASTLOCK := false }
  target : ((player inp k).matrix.master masterM0).target = .slot slotS1

section Cycle

variable {inp : ℕ → PlayerIn} {a k : ℕ}

/-- A bridge that is asked for is selected, and sees the address the stage hands on. -/
theorem selected_of_asks
    (hasks : addrTargetOf playerGenerics (player inp k).matrix (matrixInp inp k) masterM0 =
      .slot slotS1) {p : AddrPhase}
    (hgated : gatedOf playerGenerics (player inp k).matrix (matrixInp inp k) masterM0 = p) :
    (bridgeInp inp k).HSEL = true ∧ (bridgeInp inp k).HADDR = p.HADDR ∧
      (bridgeInp inp k).HWRITE = p.HWRITE := by
  have hgrant := grant_of_asks (player_isRun inp) rfl player_soleMaster (player_noLocks inp)
    slotEnable_slotS1 hasks
  obtain ⟨hsel, hphase⟩ := slaveStage_of_grant hgrant
  have hport : (sidPort (player inp k) (inp k)).phase.HADDR = p.HADDR ∧
      (sidPort (player inp k) (inp k)).phase.HWRITE = p.HWRITE := by
    rw [sidPort, slaveOut, ← matrixInp, hphase, ← hgated]
    exact ⟨rfl, rfl⟩
  exact ⟨hsel, hport⟩

theorem not_takes_of_busy (hbusy : (player inp k).bridge.HREADYOUT = false) :
    ¬Takes playerGenerics (player inp k).matrix (matrixInp inp k) masterM0 slotS1 := by
  intro htakes
  have hready := htakes.2
  rw [matrixInp_slotS1] at hready
  rw [show (bridgeSlave (player inp k).bridge).HREADYOUT = (player inp k).bridge.HREADYOUT from rfl,
    hbusy] at hready
  cases hready

/-- **A kept address makes the system deaf** to the address lines of the processor. -/
theorem playerNext_withPhase (i : PlayerIn) (p : AddrPhase)
    (hs : ((player inp k).matrix.master masterM0).addrRegSM = .registered) :
    playerNext (player inp k) (i.withPhase p) = playerNext (player inp k) i := by
  have hwf : ∀ m, ((player inp k).matrix.master m).WellFormed (playerGenerics.slotEnable m) :=
    fun m => wellFormed_run (player_isRun inp) rfl m k
  have hseen : SameSeen (player inp k).matrix (playerMatrixIn (player inp k) (i.withPhase p))
      (playerMatrixIn (player inp k) i) := by
    refine ⟨rfl, rfl, fun m => ?_, fun m hidle => ?_⟩
    · simp only [playerMatrixIn]
      split <;> rfl
    · have hm : m ≠ masterM0 := by
        rintro rfl
        rw [hs] at hidle
        cases hidle
      simp only [playerMatrixIn, if_neg hm]
  have hports : playerPorts (player inp k) (i.withPhase p) = playerPorts (player inp k) i := by
    simp only [playerPorts, sidPort, slaveOut, hseen.slaveStageIn hwf]
    rfl
  have hsdram : sdramPort (player inp k) (i.withPhase p) = sdramPort (player inp k) i := by
    simp only [sdramPort, slaveOut, hseen.slaveStageIn hwf]
  rw [playerNext, playerNext, hseen.matrixNext hwf, hports, hsdram]

namespace Stalling

variable (h : Stalling inp a k)

include h

theorem hready_eq : (m0Out inp k).HREADY_M = (m0Out inp k).PREVDATASLAVEREADY :=
  hready_eq_of_owner (wellFormed_player inp k) h.owner

theorem asks (haddr : addressesSid (inp a) = true) :
    addrTargetOf playerGenerics (player inp k).matrix (matrixInp inp k) masterM0 = .slot slotS1 := by
  rw [asks_iff h.idle, addressesSid, h.phase]
  exact haddr

/-- **The stall goes on** while the processor is told to wait. -/
theorem next (hbus : PlayerBus inp) (haddr : addressesSid (inp a) = true)
    (hwait : (m0Out inp k).HREADY_M = false) : Stalling inp a (k + 1) := by
  have hprev : (m0Out inp k).PREVDATASLAVEREADY = false := h.hready_eq.symm.trans hwait
  have htarget : ((player inp (k + 1)).matrix.master masterM0).target =
      ((player inp k).matrix.master masterM0).target := by
    rw [player_matrix_succ, target_matrixNext (wellFormed_player inp k),
      show (masterOut playerGenerics (player inp k).matrix (matrixInp inp k)
        masterM0).PREVDATASLAVEREADY = false from hprev]
    rfl
  refine ⟨?_, htarget.trans h.target, ?_, fun s hs hen => ?_⟩
  · cases hnext : ((player inp (k + 1)).matrix.master masterM0).addrRegSM with
    | idle => rfl
    | registered =>
      rcases (addrRegSM_masterNext _ _ _ _ _ _).mp hnext with ⟨-, -, hready, -⟩ | ⟨hreg, -⟩
      · have hgoes : (m0Out inp k).HREADY_M = true := hready
        rw [hwait] at hgoes
        cases hgoes
      · have hkept : ((player inp k).matrix.master masterM0).addrRegSM = .registered := hreg
        rw [h.idle] at hkept
        cases hkept
  · rw [← h.phase]
    refine hbus.address_held k hwait ?_
    rw [h.phase]
    exact (Bool.and_eq_true_iff.mp haddr).1
  · rw [htarget] at hs
    have hown := h.owner s hs hen
    have hbusy : ((matrixInp inp k).slave s).HREADYOUT = false := by
      rw [show m0Out inp k = _ from masterOut_of_slot (wellFormed_player inp k) hen hs] at hprev
      exact hprev
    rw [player_matrix_succ, masterDataInProg_matrixNext hen, hbusy]
    exact hown

/-- **When the stall ends and the bridge is busy**, the stage keeps the address. -/
theorem keeping (haddr : addressesSid (inp a) = true) (hready : (m0Out inp k).HREADY_M = true)
    (hbusy : (player inp k).bridge.HREADYOUT = false) : Keeping inp a (k + 1) := by
  have hs' : ((player inp (k + 1)).matrix.master masterM0).addrRegSM = .registered :=
    registered_of_waits (wellFormed_player inp k) (Or.inr ⟨h.idle, hready⟩) slotEnable_slotS1
      (h.asks haddr) (not_takes_of_busy hbusy)
  refine ⟨hs', ?_, ?_⟩
  · have hcopy : ((player inp (k + 1)).matrix.master masterM0).regAddr =
        ((matrixInp inp k).master masterM0).phase := regAddr_masterNext_of_idle h.idle hs'
    rw [hcopy, matrixInp_masterM0, h.phase]
  · rw [player_matrix_succ, target_matrixNext (wellFormed_player inp k),
      show (masterOut playerGenerics (player inp k).matrix (matrixInp inp k)
        masterM0).PREVDATASLAVEREADY = true from h.hready_eq.symm.trans hready, if_pos rfl]
    exact h.asks haddr

end Stalling

namespace Keeping

variable (h : Keeping inp a k)

include h

theorem pregated : pregated ((player inp k).matrix.master masterM0)
    ((matrixInp inp k).master masterM0).phase = { (inp a).M0.phase with HMASTLOCK := false } := by
  rw [(wellFormed_player inp k).pregated_of_registered h.registered, h.copy]

theorem asks (haddr : addressesSid (inp a) = true) :
    addrTargetOf playerGenerics (player inp k).matrix (matrixInp inp k) masterM0 = .slot slotS1 := by
  obtain ⟨htrans, hslot⟩ := Bool.and_eq_true_iff.mp haddr
  rw [addrTargetOf_of_pregated h.pregated, if_pos htrans, Target.slot.injEq, Fin.ext_iff]
  exact of_decide_eq_true hslot

/-- With the slave stage at work for it, the processor sees the bridge. -/
theorem hready_eq (hown : ((player inp k).matrix.slave slotS1).masterDataInProg = some masterM0) :
    (m0Out inp k).HREADY_M = (player inp k).bridge.HREADYOUT := by
  have hout : m0Out inp k =
      masterOut playerGenerics (player inp k).matrix (matrixInp inp k) masterM0 := rfl
  rw [hout, masterOut_of_slot (wellFormed_player inp k) slotEnable_slotS1 h.target, hown,
    matrixInp_slotS1]
  simp [bridgeSlave]

/-- **The address is kept** while the bridge is busy. -/
theorem next (haddr : addressesSid (inp a) = true)
    (hbusy : (player inp k).bridge.HREADYOUT = false) : Keeping inp a (k + 1) := by
  have hprev : (masterOut playerGenerics (player inp k).matrix (matrixInp inp k)
      masterM0).PREVDATASLAVEREADY = false := by
    rw [masterOut_of_slot (wellFormed_player inp k) slotEnable_slotS1 h.target, matrixInp_slotS1]
    exact hbusy
  refine ⟨?_, ?_, ?_⟩
  · exact registered_of_waits (wellFormed_player inp k) (Or.inl h.registered) slotEnable_slotS1
      (h.asks haddr) (not_takes_of_busy hbusy)
  · rw [← h.copy]
    exact regAddr_masterNext_of_registered h.registered
  · rw [player_matrix_succ, target_matrixNext (wellFormed_player inp k), hprev]
    exact h.target

end Keeping

end Cycle

section Stalled

variable {inp : ℕ → PlayerIn} {a : ℕ} (hbus : PlayerBus inp)
  (hbefore : ∀ k, k < a → ¬StalledSidAddress inp k) (hstall : StalledSidAddress inp a)

include hbus hbefore hstall

/-- A stalled address is the start of an access. -/
theorem accessBegins_of_stalled : AccessBegins (bridgeInp inp) a := by
  have h := conformsUpTo_player hbus hbefore
  exact (accessBegins_iff (bridgeInp inp) a).mpr (taken_iff.mpr
    ⟨rfl, idle_of_stalled h hbefore hstall, ((stalledSidAddress_iff h).mp hstall).1⟩)

omit hstall in
theorem stalling_start : Stalling inp a a := by
  have h := conformsUpTo_player hbus hbefore
  exact ⟨idle_player h, rfl, rfl, fun s hs hen => (matrixInv_run h).owner masterM0 s (idle_player h) hs hen⟩

section Sid

variable (hsid : (inp a).M0.phase.HADDR.getLsbD 14 = true)

include hsid

/-- The access keeps the bridge busy, and then leaves it idle. -/
theorem busy_of_stalled :
    (∀ k, a < k → k < secondStart inp a → (player inp k).bridge.HREADYOUT = false) ∧
      (run (bridgeInp inp) (secondStart inp a)).state = .stIdle := by
  have h := conformsUpTo_player hbus hbefore
  have hsel := ((stalledSidAddress_iff h).mp hstall).1
  have hreq : sidRequest (run (bridgeInp inp) a) (bridgeInp inp a) = true := by
    refine sidRequest_iff.mpr ⟨idle_of_stalled h hbefore hstall, hsel, ?_⟩
    rw [Ports.haddr14, (phase_of_hsel h hsel).1]
    exact hsid
  have hcourse := course (run_isRun _) (fun _ => rfl) busSafe_resetReg hreq
  rw [secondStart, player_bridge, waitStates_eq]
  refine ⟨fun k hak hk => ?_, hcourse.done⟩
  obtain ⟨k, rfl⟩ := Nat.exists_eq_add_of_le (Nat.le_of_lt hak)
  rw [player_bridge]
  exact hcourse.ready k (by omega) (by omega)

/-- **The stage from the stall to the second start**: the stall goes on, or the address is kept. -/
theorem stalling_or_keeping {k : ℕ} (hak : a ≤ k) (hk : k ≤ secondStart inp a) :
    Stalling inp a k ∨ Keeping inp a k := by
  induction k, hak using Nat.le_induction with
  | base => exact Or.inl (stalling_start hbus hbefore)
  | succ k hak ih =>
    have hbusy := (busy_of_stalled hbus hbefore hstall hsid).1
    rcases ih (Nat.le_of_succ_le hk) with hstalling | hkeeping
    · cases hready : (m0Out inp k).HREADY_M with
      | false => exact Or.inl (hstalling.next hbus hstall.1 hready)
      | true =>
        right
        refine hstalling.keeping hstall.1 hready (hbusy k ?_ hk)
        rcases Nat.eq_or_lt_of_le hak with rfl | hlt
        · rw [hstall.2.1] at hready
          cases hready
        · exact hlt
    · right
      refine hkeeping.next hstall.1 (hbusy k ?_ hk)
      rcases Nat.eq_or_lt_of_le hak with rfl | hlt
      · have hidle := (stalling_start hbus hbefore).idle
        rw [hkeeping.registered] at hidle
        cases hidle
      · exact hlt

/-- The data phase of the bridge belongs to the processor from the stalled address on. -/
theorem owner_slotS1 {k : ℕ} (hak : a < k) (hk : k ≤ secondStart inp a) :
    ((player inp k).matrix.slave slotS1).masterDataInProg = some masterM0 := by
  induction k, hak using Nat.le_induction with
  | base =>
    have h := conformsUpTo_player hbus hbefore
    have hready : ((matrixInp inp a).slave slotS1).HREADYOUT = true := by
      rw [matrixInp_slotS1]
      show (player inp a).bridge.HREADYOUT = true
      rw [player_bridge]
      exact (busSafe_run _ a).ready_of (Or.inl (idle_of_stalled h hbefore hstall))
    rw [player_matrix_succ, masterDataInProg_matrixNext slotEnable_slotS1, if_pos hready]
    exact grant_of_asks (player_isRun inp) rfl player_soleMaster (player_noLocks inp)
      slotEnable_slotS1 ((stalling_start hbus hbefore).asks hstall.1)
  | succ k hak ih =>
    have hbusy : ((matrixInp inp k).slave slotS1).HREADYOUT = false := by
      rw [matrixInp_slotS1]
      exact (busy_of_stalled hbus hbefore hstall hsid).1 k hak hk
    rw [player_matrix_succ, masterDataInProg_matrixNext slotEnable_slotS1, hbusy]
    exact ih (Nat.le_of_succ_le hk)

omit hbus hbefore hstall hsid in
theorem secondStart_stalledRun : secondStart stalledRun 1 = 76 := by
  decide +kernel

omit hbus hbefore hstall hsid in
theorem unstalled_before_stalledRun : ∀ k, k < 1 → ¬StalledSidAddress stalledRun k := by
  rintro k hk ⟨-, hwait, -⟩
  obtain rfl : k = 0 := by omega
  rw [hready_zero] at hwait
  cases hwait

end Sid

end Stalled

end SidBridge
