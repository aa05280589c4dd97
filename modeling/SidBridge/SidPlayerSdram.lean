import Mathlib.Tactic.Common
import SidBridge.SidPlayer

/-!
# From the processor to the SDRAM controller

The SDRAM controller looks at `HTRANS`, so a selection alone does not start anything in it.  As long as no
address of the bridge is stalled, it takes exactly what the processor asks of it.

* `sdramIssued`, `sdramTaken` — the transfers the processor sees accepted, and those the controller takes;
* `sdramTaken_eq` — they are the same, cycle by cycle;
* `target_of_sdram`, `sdram_data` — while the processor waits, its data phase stays with the controller;
* `sdram_delivery` — **every transfer is taken once, and the answer is the one to its own address and size**.
-/

namespace SidBridge

open CoreAhbLite

/-- The address of the processor's transfer lies in slot 0. -/
def addressesSdram (i : PlayerIn) : Bool :=
  i.M0.phase.HTRANS && decide ((nibble i.M0.phase.HADDR 24).val = 0)

/-- The transfer to the SDRAM that the processor sees accepted in cycle `n`. -/
def sdramIssued (inp : ℕ → PlayerIn) (n : ℕ) : Option AddrPhase :=
  if addressesSdram (inp n) && (m0Out inp n).HREADY_M then
    some { (inp n).M0.phase with HMASTLOCK := false }
  else none

/-- The transfer that the SDRAM controller takes in cycle `n`. -/
def sdramTaken (inp : ℕ → PlayerIn) (n : ℕ) : Option AddrPhase :=
  if acen (sdramInp inp n) then some (sdramInp inp n).phase else none

theorem sdramIssued_eq_some_iff {inp : ℕ → PlayerIn} {n : ℕ} {phase : AddrPhase} :
    sdramIssued inp n = some phase ↔ addressesSdram (inp n) = true ∧ (m0Out inp n).HREADY_M = true ∧
      { (inp n).M0.phase with HMASTLOCK := false } = phase := by
  unfold sdramIssued
  split <;> simp_all

theorem asksSdram_iff {inp : ℕ → PlayerIn} {n : ℕ}
    (hs : ((player inp n).matrix.master masterM0).addrRegSM = .idle) :
    addrTargetOf playerGenerics (player inp n).matrix (matrixInp inp n) masterM0 = .slot slotS0 ↔
      addressesSdram (inp n) = true := by
  rw [addrTargetOf_player hs, addressesSdram]
  cases (inp n).M0.phase.HTRANS with
  | true =>
    rw [if_pos rfl, Target.slot.injEq, Fin.ext_iff, Bool.true_and, decide_eq_true_eq]
    exact Iff.rfl
  | false => simp

section Conforming

variable {inp : ℕ → PlayerIn} {n : ℕ} (h : Conforms inp n)

include h

/-- **The data phase at the SDRAM controller** is the processor's. -/
theorem data_of_slotS0 (htarget : ((player inp n).matrix.master masterM0).target = .slot slotS0) :
    m0Out inp n =
        { HREADY_M := (sdrPort (player inp n).sdram (inp n).SDRAM).HREADYOUT
          HRESP := (sdrPort (player inp n).sdram (inp n).SDRAM).HRESP
          HRDATA := (sdrPort (player inp n).sdram (inp n).SDRAM).HRDATA
          PREVDATASLAVEREADY := (sdrPort (player inp n).sdram (inp n).SDRAM).HREADYOUT } ∧
      (sdramInp inp n).HWDATA = (inp n).M0.HWDATA := by
  have hdata := data_of_target h (player_noLocks inp) player_soleMaster slotEnable_slotS0 htarget
  rw [matrixInp_slotS0, matrixInp_masterM0] at hdata
  exact hdata

/-- **The controller takes what the processor sees accepted**, in the same cycle. -/
theorem sdramTaken_eq : sdramTaken inp n = sdramIssued inp n := by
  cases haddr : addressesSdram (inp n) with
  | false =>
    have hsel : (sdramInp inp n).HSEL = false := by
      refine port_of_not_asks h player_soleMaster fun hasks => ?_
      rw [(asksSdram_iff (idle_player h)).mp hasks] at haddr
      cases haddr
    simp [sdramTaken, sdramIssued, acen, HSEL_S, hsel, haddr]
  | true =>
    have hasks := (asksSdram_iff (idle_player h)).mpr haddr
    obtain ⟨hsel, hphase⟩ :=
      port_of_asks h (player_noLocks inp) player_soleMaster slotEnable_slotS0 hasks
    rw [gatedOf_player (idle_player h)] at hphase
    change (sdramInp inp n).HSEL = true at hsel
    change (sdramInp inp n).phase = { (inp n).M0.phase with
      HMASTLOCK := false
      HTRANS := (m0Out inp n).HREADY_M ||
        decide (((player inp n).matrix.master masterM0).target = .slot slotS0) } at hphase
    cases hready : (m0Out inp n).HREADY_M with
    | true =>
      have hslot := ready_of_hready h (player_noLocks inp) player_soleMaster slotEnable_slotS0 hready
      rw [matrixInp_slotS0, ← sdramInp_hready] at hslot
      have htrans : (inp n).M0.phase.HTRANS = true := (Bool.and_eq_true_iff.mp haddr).1
      rw [hready, Bool.true_or] at hphase
      simp [sdramTaken, sdramIssued, acen, HSEL_S, hsel, hphase, hslot, haddr, hready, htrans]
    | false =>
      have hno : acen (sdramInp inp n) = false := by
        by_cases htarget : ((player inp n).matrix.master masterM0).target = .slot slotS0
        · -- the controller is busy with the transfer before
          have hbusy : (sdramInp inp n).HREADY_S = false := by
            rw [sdramInp_hready, ← hready, (data_of_slotS0 h htarget).1]
          rw [acen, hbusy, Bool.and_false]
        · rw [hready, Bool.false_or, decide_eq_false htarget] at hphase
          simp [acen, HSEL_S, hphase]
      simp [sdramTaken, sdramIssued, hno, hready]

end Conforming

section Unstalled

variable {inp : ℕ → PlayerIn} (hbus : PlayerBus inp) (hno : ∀ n, ¬StalledSidAddress inp n)

include hbus hno

/-- While the processor waits, its data phase stays with the controller. -/
theorem target_of_sdram {a k : ℕ} {phase : AddrPhase} (hissue : sdramIssued inp a = some phase)
    (hak : a < k) (hwait : ∀ j, a < j → j < k → (m0Out inp j).HREADY_M = false) :
    ((player inp k).matrix.master masterM0).target = .slot slotS0 := by
  have hconf := fun j => conformsUpTo_player hbus (n := j) fun k _ => hno k
  induction k, hak using Nat.le_induction with
  | base =>
    obtain ⟨haddr, hready, -⟩ := sdramIssued_eq_some_iff.mp hissue
    exact target_of_asks (hconf a) ((asksSdram_iff (idle_player (hconf a))).mpr haddr) hready
  | succ k hak ih =>
    have htarget := ih fun j haj hjk => hwait j haj (Nat.lt_succ_of_lt hjk)
    have hbusy := hwait k hak (Nat.lt_succ_self k)
    rw [(data_of_slotS0 (hconf k) htarget).1, ← matrixInp_slotS0] at hbusy
    exact ((matrixInv_run (hconf k)).waits_next (idle_player (hconf k)) htarget slotEnable_slotS0
      hbusy).2

/-- **The registers of the controller** hold the transfer whose data phase the processor is in. -/
theorem sdram_data {a k : ℕ} {phase : AddrPhase} (hissue : sdramIssued inp a = some phase)
    (hak : a < k) (hwait : ∀ j, a < j → j < k → (m0Out inp j).HREADY_M = false) :
    (player inp k).sdram = { HSELREG := true, haddr_reg := phase.HADDR, hsize_reg := phase.HSIZE } := by
  have hconf := fun j => conformsUpTo_player hbus (n := j) fun k _ => hno k
  have htaken : sdramTaken inp a = some phase := (sdramTaken_eq (hconf a)).trans hissue
  unfold sdramTaken at htaken
  split at htaken
  · rename_i hacen
    rw [Option.some.injEq] at htaken
    rw [← htaken]
    refine sdrReg_of_taken (player_sdram inp) hak hacen fun j haj hjk => ?_
    have hbusy := hwait j haj hjk
    rw [(data_of_slotS0 (hconf j) (target_of_sdram hbus hno hissue haj fun l hal hlj =>
      hwait l hal (hlj.trans hjk))).1, ← sdramInp_hready] at hbusy
    exact hbusy
  · cases htaken

/-- **The SDRAM controller gets every transfer of the processor once**, in the cycle in which the processor
sees it accepted, and nothing else.  Until the processor sees its end it sees `HREADY_AHB`, the controller
sees its data, and the answer is taken from `hdataout_reg` by the address and the size of that transfer; a
byte is there in every lane. -/
theorem sdram_delivery :
    (∀ n, sdramTaken inp n = sdramIssued inp n) ∧
      ∀ a k phase, sdramIssued inp a = some phase → a < k →
        (∀ j, a < j → j < k → (m0Out inp j).HREADY_M = false) →
          (sdramInp inp k).HWDATA = (inp k).M0.HWDATA ∧
            (m0Out inp k).HREADY_M = (inp k).SDRAM.HREADY_AHB ∧ (m0Out inp k).HRESP = false ∧
            (m0Out inp k).HRDATA =
              sdrHRDATA { HSELREG := true, haddr_reg := phase.HADDR, hsize_reg := phase.HSIZE }
                (inp k).SDRAM.hdataout_reg ∧
            (phase.HSIZE = 0b000#3 → ∀ lane, lane < 4 →
              (m0Out inp k).HRDATA.extractLsb' (8 * lane) 8 =
                (inp k).SDRAM.hdataout_reg.extractLsb' (if phase.HADDR.getLsbD 0 then 8 else 0) 8) := by
  have hconf := fun j => conformsUpTo_player hbus (n := j) fun k _ => hno k
  refine ⟨fun n => sdramTaken_eq (hconf n), fun a k phase hissue hak hwait => ?_⟩
  obtain ⟨hout, hdata⟩ := data_of_slotS0 (hconf k) (target_of_sdram hbus hno hissue hak hwait)
  rw [hout, sdram_data hbus hno hissue hak hwait]
  refine ⟨hdata, rfl, rfl, rfl, fun hsize lane hlane => ?_⟩
  exact sdrHRDATA_byte hsize _ hlane

end Unstalled

/-- The processor reads the byte at address 1 of the SDRAM, which takes two cycles. -/
def sdramByteRun (n : ℕ) : PlayerIn where
  M0 :=
    { phase := if n = 0 then { AddrPhase.zero with HADDR := 1, HTRANS := true } else .zero
      HWDATA := 0 }
  SDRAM := { HREADY_AHB := decide (n ≠ 1), hdataout_reg := 0xA5C3#32 }
  sidDataI := 0

/-- In cycle 2 it has the upper one of the two bytes, in the lane of its address too. -/
theorem sdram_delivery_byte : (m0Out sdramByteRun 2).HRDATA.extractLsb' 8 8 = 0xA5#8 := by
  have hbus : PlayerBus sdramByteRun := playerBus_of_once (fun _ => rfl) fun _ _ => rfl
  have hissue : sdramIssued sdramByteRun 0 =
      some { AddrPhase.zero with HADDR := 1, HTRANS := true } := by decide +kernel
  have hwait : ∀ j, 0 < j → j < 2 → (m0Out sdramByteRun j).HREADY_M = false := by
    intro j hj hlt
    obtain rfl : j = 1 := by omega
    decide +kernel
  obtain ⟨-, -, -, -, hbyte⟩ := (sdram_delivery hbus (unstalled_of_once fun _ => rfl)).2 0 2 _ hissue
    (by omega) hwait
  exact (hbyte rfl 1 (by omega)).trans (by decide)

end SidBridge
