import Mathlib.Tactic.Common
import SidBridge.CoreAhbLite.Progress
import SidBridge.SidPlayerDelivery

/-!
# The processor is never blocked for ever

What a stalled address makes of the bridge is wrong, but it does not hang the bus.  Nothing is asked of the
processor here, and of the SDRAM controller only that it goes on again and again.

* `bridge_ready_within` — the bridge is ready again after 772 cycles at most;
* `sdram_ready_of` — the port of the SDRAM controller is ready when the controller is;
* `never_blocked` — **the processor goes on again**, and in bounded time if it waits for the bridge.
-/

namespace SidBridge

open CoreAhbLite

/-- **The bridge is ready again** after three half-periods of the slowest clock and seven cycles, whatever
its inputs are. -/
theorem bridge_ready_within {inp : ℕ → Ports} (hrst : ∀ n, (inp n).HRESETN = true) (n : ℕ) :
    ∃ d, d ≤ 772 ∧ (run inp (n + d)).HREADYOUT = true := by
  cases hready : (run inp n).HREADYOUT with
  | true => exact ⟨0, Nat.zero_le _, hready⟩
  | false =>
    have hbusy : (run inp n).state.isSidAccess = true := by
      rw [(busSafe_run inp n).hreadyout, Bool.not_eq_false'] at hready
      exact hready
    obtain ⟨a, han, hreq, -, hall⟩ := access_origin hrst hbusy
    have hdone := (course (run_isRun inp) hrst busSafe_resetReg hreq).done
    rw [show ∀ F rise : ℕ, rise + F + 5 = rise + F + 4 + 1 from fun _ _ => rfl, ← waitStates_eq] at hdone
    -- the access that keeps the bridge busy is not over
    have hlt : n < a + (waitStates (run inp a) + 1) := by
      by_contra hover
      have hstill := hall (a + (waitStates (run inp a) + 1)) (by omega) (by omega)
      rw [hdone] at hstill
      cases hstill
    have hbound := waitStates_le (run inp a)
    have hfreq := (run inp a).sidFreq.isLt
    refine ⟨a + (waitStates (run inp a) + 1) - n, by omega, ?_⟩
    rw [show n + (a + (waitStates (run inp a) + 1) - n) = a + (waitStates (run inp a) + 1) by omega]
    exact (busSafe_run inp _).ready_of (Or.inl hdone)

theorem sdram_ready_of {reg : SdrReg} {i : SdrIn} (h : i.HREADY_AHB = true) :
    (sdrPort reg i).HREADYOUT = true := by
  rw [sdrPort, h, ite_self]

section Runs

variable (inp : ℕ → PlayerIn)

theorem remap_player (n : ℕ) : (matrixInp inp (n + 1)).REMAP_M0 = (matrixInp inp n).REMAP_M0 := rfl

/-- The bridge, as a slave of the bus core. -/
theorem slotS1_ready_within (n : ℕ) :
    ∃ d, d ≤ 772 ∧ ((matrixInp inp (n + d)).slave slotS1).HREADYOUT = true := by
  have hrst : ∀ k, (bridgeInp inp k).HRESETN = true := fun _ => rfl
  obtain ⟨d, hd, hready⟩ := bridge_ready_within hrst n
  refine ⟨d, hd, ?_⟩
  rw [matrixInp_slotS1]
  show (player inp (n + d)).bridge.HREADYOUT = true
  rw [player_bridge]
  exact hready

/-- **The bus never hangs**, whatever the processor does.  While its data phase is at the bridge it is told
to go on within twice the longest access; and if the SDRAM controller is ready again and again, so is the
bus. -/
theorem never_blocked :
    (∀ n, ((player inp n).matrix.master masterM0).target = .slot slotS1 →
        ∃ k, n ≤ k ∧ k ≤ n + 1545 ∧ (m0Out inp k).HREADY_M = true) ∧
      ((∀ k, ∃ j, k ≤ j ∧ (inp j).SDRAM.HREADY_AHB = true) →
        ∀ n, ∃ k, n ≤ k ∧ (m0Out inp k).HREADY_M = true) := by
  refine ⟨fun n htarget => ?_, fun hoften n => ?_⟩
  · choose f hf hready using slotS1_ready_within inp
    obtain ⟨j, k, -, hj, hk, hle, hout⟩ :=
      hready_within (player_isRun inp) rfl player_soleMaster (player_noLocks inp) (remap_player inp)
        htarget slotEnable_slotS1 fun k _ => hready k
    have hfirst := hf n
    have hsecond := hf j
    exact ⟨k, hk, by omega, hout⟩
  · refine hready_again (player_isRun inp) rfl player_soleMaster (player_noLocks inp) (remap_player inp)
      (fun s hen k => ?_) n
    rcases (slotEnable_iff.mp hen).2 with rfl | rfl
    · obtain ⟨j, hj, hready⟩ := hoften k
      refine ⟨j, hj, ?_⟩
      rw [matrixInp_slotS0]
      exact sdram_ready_of hready
    · obtain ⟨d, -, hready⟩ := slotS1_ready_within inp k
      exact ⟨k + d, Nat.le_add_right k d, hready⟩

end Runs

/-- Not even after a stalled address, whose access keeps the processor waiting from cycle 3 on. -/
theorem never_blocked_stalledRun : (∃ k, 3 ≤ k ∧ k ≤ 1548 ∧ (m0Out stalledRun k).HREADY_M = true) ∧
    ∀ n, ∃ k, n ≤ k ∧ (m0Out stalledRun k).HREADY_M = true := by
  refine ⟨(never_blocked stalledRun).1 3 (by decide +kernel), (never_blocked stalledRun).2 fun k => ?_⟩
  have hready : k + 2 ≠ 1 := by omega
  exact ⟨k + 2, Nat.le_add_right k 2, by simp [stalledRun, hready]⟩

end SidBridge
