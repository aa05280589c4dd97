import Mathlib.Tactic.Common
import SidBridge.NoLoss
import SidBridge.NoPhantom
import SidBridge.SidPlayer

/-!
# From the processor to the bridge

What the processor does on its own port decides what the bridge does behind the bus core.  All conditions
here are about the processor alone; the SDRAM controller may take any time it likes.

* `sidIssued` — the transfers to the bridge that the processor sees accepted;
* `idle_of_stalled`, `accesses_issued_iff` — every access of the bridge is one of them exactly when no
  address of the bridge is stalled;
* `ahbMaster_bridgeInp`, `accepted_bridgeInp` — then the core is a conforming master for the bridge, and
  what it sees accepted is what the processor does;
* `Spaced`, `taken_of_issued` — no transfer follows a register write at once; then the bridge takes them all;
* `SidDelivers`, `sid_delivery` — **nothing else is carried out or changed, and everything is carried out**
  exactly when the processor leaves that gap;
* `tuneRun` — a processor at work, for which all of this holds.
-/

namespace SidBridge

open CoreAhbLite

/-- The processor's signals of one cycle, as a slave would see them. -/
def m0Ports (i : PlayerIn) : Ports :=
  { Ports.quiet with
    HADDR := i.M0.phase.HADDR
    HSEL := true
    HTRANS := 0b10#2
    HWDATA := i.M0.HWDATA
    HWRITE := i.M0.phase.HWRITE }

/-- The transfer to the bridge that the processor sees accepted in cycle `n`; its data phase starts in the
next cycle. -/
def sidIssued (inp : ℕ → PlayerIn) (n : ℕ) : Option Transfer :=
  if addressesSid (inp n) && (m0Out inp n).HREADY_M then
    some (transferOf (m0Ports (inp n)) (m0Ports (inp (n + 1))))
  else none

theorem sidIssued_isSome_iff {inp : ℕ → PlayerIn} {n : ℕ} : (sidIssued inp n).isSome = true ↔
    addressesSid (inp n) = true ∧ (m0Out inp n).HREADY_M = true := by
  unfold sidIssued
  split <;> simp_all

/-- A transfer is its address, its direction and its data. -/
theorem transferOf_congr {i i' d d' : Ports} (haddr : i.HADDR = i'.HADDR) (hwrite : i.HWRITE = i'.HWRITE)
    (hdata : d.HWDATA = d'.HWDATA) : transferOf i d = transferOf i' d' := by
  unfold transferOf Ports.haddr14 Ports.haddr32 Ports.haddr62 Ports.hwdata70
  rw [haddr, hwrite, hdata]

/-- A ready bridge is idle, or in the data cycle of a register write. -/
theorem BusSafe.idle_of_ready {reg : RegType} (h : BusSafe reg) (hready : reg.HREADYOUT = true)
    (hs : reg.state ≠ .stWriteReg) : reg.state = .stIdle := by
  by_contra hidle
  rw [h.not_ready_of hidle hs] at hready
  cases hready

/-! ### One cycle of the bridge's port -/

section Conforming

variable {inp : ℕ → PlayerIn} {n : ℕ} (h : Conforms inp n)

include h

/-- A transfer at the port of a ready bridge is one the processor sees accepted. -/
theorem hready_of_transfer (hsel : (bridgeInp inp n).HSEL = true)
    (htrans : (bridgeInp inp n).htrans1 = true) (hready : (player inp n).bridge.HREADYOUT = true) :
    (m0Out inp n).HREADY_M = true := by
  rw [(phase_of_hsel h hsel).2.2, Bool.or_eq_true, decide_eq_true_eq] at htrans
  rcases htrans with hgo | htarget
  · exact hgo
  · rw [(data_of_slotS1 h htarget).1]
    exact hready

theorem target_of_issued (haddr : addressesSid (inp n) = true) (hready : (m0Out inp n).HREADY_M = true) :
    ((player inp (n + 1)).matrix.master masterM0).target = .slot slotS1 :=
  target_of_asks h ((asks_iff (idle_player h)).mpr haddr) hready

/-- While the processor goes on, the bridge is ready. -/
theorem bridge_ready_of_hready (hready : (m0Out inp n).HREADY_M = true) :
    (player inp n).bridge.HREADYOUT = true := by
  have hslot := ready_of_hready h (player_noLocks inp) player_soleMaster slotEnable_slotS1 hready
  rw [matrixInp_slotS1] at hslot
  exact hslot

/-- **At a stalled address the bridge is idle**, and starts an access. -/
theorem idle_of_stalled (hbefore : ∀ k, k < n → ¬StalledSidAddress inp k)
    (hstall : StalledSidAddress inp n) : (run (bridgeInp inp) n).state = .stIdle := by
  have hready : (run (bridgeInp inp) n).HREADYOUT = true := by
    by_contra hbusy
    rw [← player_bridge, Bool.not_eq_true] at hbusy
    exact hstall.2.2 (target_of_bridge_busy h hbusy)
  refine (busSafe_run (bridgeInp inp) n).idle_of_ready hready fun hs => ?_
  cases n with
  | zero => cases hs
  | succ k =>
    -- the data cycle of a register write belongs to a transfer of the processor
    have hk := h.mono (Nat.le_succ k)
    rw [run_succ, state_nextReg rfl, nextState_eq_stWriteReg_iff] at hs
    obtain ⟨hidle', hsel, -, -⟩ := registerWrite_iff.mp hs
    have htrans : (bridgeInp inp k).htrans1 = true := by
      by_contra hno
      exact hbefore k (Nat.lt_succ_self k)
        ((stalledSidAddress_iff hk).mpr ⟨hsel, by simpa using hno⟩)
    have hready' : (player inp k).bridge.HREADYOUT = true := by
      rw [player_bridge]
      exact (busSafe_run (bridgeInp inp) k).ready_of (Or.inl hidle')
    exact hstall.2.2 (target_of_issued hk ((hsel_iff hk).mp hsel)
      (hready_of_transfer hk hsel htrans hready'))

end Conforming

/-- **Exactly when the bridge does what the processor asks for**: every access begins at a transfer the
processor sees accepted if and only if no address of the bridge is ever stalled. -/
theorem accesses_issued_iff {inp : ℕ → PlayerIn} (hbus : PlayerBus inp) :
    (∀ n, AccessBegins (bridgeInp inp) n → (sidIssued inp n).isSome = true) ↔
      ∀ n, ¬StalledSidAddress inp n := by
  classical
  constructor
  · intro hall n hstall
    -- the first stalled address is a phantom
    have hex : ∃ k, StalledSidAddress inp k := ⟨n, hstall⟩
    have hfirst := Nat.find_spec hex
    have hbefore : ∀ k, k < Nat.find hex → ¬StalledSidAddress inp k := fun k hk => Nat.find_min hex hk
    revert hfirst hbefore
    generalize Nat.find hex = a
    intro hfirst hbefore
    have h := conformsUpTo_player hbus hbefore
    have hsel := ((stalledSidAddress_iff h).mp hfirst).1
    have hbegins := (accessBegins_iff (bridgeInp inp) a).mpr
      (taken_iff.mpr ⟨rfl, idle_of_stalled h hbefore hfirst, hsel⟩)
    have hready := (sidIssued_isSome_iff.mp (hall a hbegins)).2
    rw [hfirst.2.1] at hready
    cases hready
  · intro hno n hbegins
    have h := conformsUpTo_player hbus fun k (_ : k < n) => hno k
    obtain ⟨-, hidle, hsel⟩ := taken_iff.mp ((accessBegins_iff (bridgeInp inp) n).mp hbegins)
    have htrans : (bridgeInp inp n).htrans1 = true := by
      by_contra hgate
      exact hno n ((stalledSidAddress_iff h).mpr ⟨hsel, by simpa using hgate⟩)
    have hready : (player inp n).bridge.HREADYOUT = true := by
      rw [player_bridge]
      exact (busSafe_run (bridgeInp inp) n).ready_of (Or.inl hidle)
    exact sidIssued_isSome_iff.mpr
      ⟨(hsel_iff h).mp hsel, hready_of_transfer h hsel htrans hready⟩

/-- The processor reads the SDRAM in cycle 0, which takes two cycles, and writes a register of the SID
next. -/
def stalledRun (n : ℕ) : PlayerIn where
  M0 :=
    { phase :=
        if n = 0 then { AddrPhase.zero with HTRANS := true }
        else if n ≤ 2 then
          { AddrPhase.zero with HADDR := 0x01004060#32, HTRANS := true, HWRITE := true }
        else .zero
      HWDATA := 0x0F#32 }
  SDRAM := { HREADY_AHB := decide (n ≠ 1), hdataout_reg := 0 }
  sidDataI := 0

theorem playerBus_stalledRun : PlayerBus stalledRun where
  address_held n hwait htrans := by
    rcases Nat.lt_or_ge 2 n with hlt | hle
    · simp [stalledRun, show n ≠ 0 by omega, show ¬n ≤ 2 by omega, AddrPhase.zero] at htrans
    · obtain rfl | rfl | rfl : n = 0 ∨ n = 1 ∨ n = 2 := by omega
      · rw [hready_zero] at hwait
        cases hwait
      · rfl
      · have hready : (m0Out stalledRun 2).HREADY_M = true := by decide +kernel
        rw [hready] at hwait
        cases hwait
  data_held _ _ _ _ _ _ _ := rfl

/-- The write is presented in cycle 1, while the SDRAM controller keeps the processor waiting. -/
theorem stalledRun_stalled : StalledSidAddress stalledRun 1 := by
  refine ⟨by decide, by decide +kernel, by decide +kernel⟩

/-- So the bridge does something else than the processor asks for. -/
theorem accesses_issued_stalledRun :
    ¬∀ n, AccessBegins (bridgeInp stalledRun) n → (sidIssued stalledRun n).isSome = true :=
  fun hall => (accesses_issued_iff playerBus_stalledRun).mp hall 1 stalledRun_stalled

/-! ### The core as a master of the bridge -/

section Unstalled

variable {inp : ℕ → PlayerIn} (hbus : PlayerBus inp) (hno : ∀ n, ¬StalledSidAddress inp n)

include hbus hno

theorem conforms_of_unstalled (n : ℕ) : Conforms inp n :=
  conformsUpTo_player hbus fun k _ => hno k

theorem htrans1_of_hsel {n : ℕ} (hsel : (bridgeInp inp n).HSEL = true) :
    (bridgeInp inp n).htrans1 = true := by
  by_contra hgate
  exact hno n ((stalledSidAddress_iff (conforms_of_unstalled hbus hno n)).mpr
    ⟨hsel, by simpa using hgate⟩)

/-- A data cycle in which the bridge takes time is a data cycle of the processor. -/
theorem m0_data_of_busy {n : ℕ} (hbusy : (run (bridgeInp inp) n).HREADYOUT = false) :
    (m0Out inp n).HREADY_M = false ∧ (bridgeInp inp n).HWDATA = (inp n).M0.HWDATA := by
  have h := conforms_of_unstalled hbus hno n
  rw [← player_bridge] at hbusy
  obtain ⟨hout, hdata⟩ := data_of_slotS1 h (target_of_bridge_busy h hbusy)
  rw [hout]
  exact ⟨hbusy, hdata⟩

/-- What the bridge sees accepted, the processor sees accepted. -/
theorem hready_of_accepted {n : ℕ} (hacc : (accepted (bridgeInp inp) n).isSome = true) :
    addressesSid (inp n) = true ∧ (m0Out inp n).HREADY_M = true := by
  have h := conforms_of_unstalled hbus hno n
  unfold accepted at hacc
  split at hacc
  · rename_i hall
    rw [Bool.and_eq_true, Bool.and_eq_true, bridgeInp_hreadyin] at hall
    exact ⟨(hsel_iff h).mp hall.1.1, hready_of_transfer h hall.1.1 hall.1.2 hall.2⟩
  · cases hacc

/-- **The core is a conforming master.** -/
theorem ahbMaster_bridgeInp : AhbMaster (bridgeInp inp) where
  no_reset _ := rfl
  ready_loop n := by rw [bridgeInp_hreadyin, player_bridge]
  selects_transfer _ hsel := htrans1_of_hsel hbus hno hsel
  address_held n hbusy hsel := by
    have h := conforms_of_unstalled hbus hno n
    have h' := conforms_of_unstalled hbus hno (n + 1)
    have haddr := (hsel_iff h).mp hsel
    have hheld : (inp (n + 1)).M0.phase = (inp n).M0.phase := by
      refine hbus.address_held n (m0_data_of_busy hbus hno hbusy).1 ?_
      exact (Bool.and_eq_true_iff.mp haddr).1
    have hsel' : (bridgeInp inp (n + 1)).HSEL = true := by
      rw [hsel_iff h', addressesSid, hheld]
      exact haddr
    obtain ⟨hfrom, hdir, -⟩ := phase_of_hsel h hsel
    obtain ⟨hfrom', hdir', -⟩ := phase_of_hsel h' hsel'
    refine ⟨hsel', by rw [hfrom, hfrom', hheld], ?_, by rw [hdir, hdir', hheld]⟩
    have htrans := htrans1_of_hsel hbus hno hsel
    have htrans' := htrans1_of_hsel hbus hno hsel'
    rw [bridgeInp_htrans1] at htrans htrans'
    show BitVec.ofBool _ ++ 0#1 = BitVec.ofBool _ ++ 0#1
    rw [sidPort, sidPort, ← matrixInp, ← matrixInp, htrans, htrans']
  data_held a hacc hw k hk hbusy := by
    have h := conforms_of_unstalled hbus hno a
    obtain ⟨haddr, hready⟩ := hready_of_accepted hbus hno hacc
    have hdir := (phase_of_hsel h ((hsel_iff h).mpr haddr)).2.1
    rw [(m0_data_of_busy hbus hno (hbusy k hk le_rfl)).2,
      (m0_data_of_busy hbus hno (hbusy (a + 1) (Nat.lt_succ_self a) hk)).2]
    refine hbus.data_held a (Bool.and_eq_true_iff.mp haddr).1 (hdir ▸ hw) hready k hk fun j hj hle => ?_
    exact (m0_data_of_busy hbus hno (hbusy j hj hle)).1

/-- **What the bridge sees accepted is what the processor sees accepted.** -/
theorem accepted_bridgeInp (n : ℕ) : accepted (bridgeInp inp) n = sidIssued inp n := by
  have h := conforms_of_unstalled hbus hno n
  cases hissue : (sidIssued inp n).isSome with
  | false =>
    have hacc : ¬(accepted (bridgeInp inp) n).isSome = true := by
      intro hacc
      rw [sidIssued_isSome_iff.mpr (hready_of_accepted hbus hno hacc)] at hissue
      cases hissue
    rw [← Bool.not_eq_true, Option.not_isSome_iff_eq_none] at hissue
    rw [Option.not_isSome_iff_eq_none.mp hacc, hissue]
  | true =>
    obtain ⟨haddr, hready⟩ := sidIssued_isSome_iff.mp hissue
    have hsel := (hsel_iff h).mpr haddr
    obtain ⟨hfrom, hdir, -⟩ := phase_of_hsel h hsel
    have hdata := (data_of_slotS1 (conforms_of_unstalled hbus hno (n + 1))
      (target_of_issued h haddr hready)).2
    have hsame : transferOf (bridgeInp inp n) (bridgeInp inp (n + 1)) =
        transferOf (m0Ports (inp n)) (m0Ports (inp (n + 1))) := transferOf_congr hfrom hdir hdata
    simp [accepted, sidIssued, hsel, htrans1_of_hsel hbus hno hsel, bridgeInp_hreadyin,
      bridge_ready_of_hready h hready, haddr, hready, hsame]

end Unstalled

/-! ### Nothing invented, nothing lost -/

/-- **Nothing is lost** on the way to the bridge and in it: what the processor sees accepted is carried out,
in order, less one transfer that may still be in progress. -/
def SidDelivers (inp : ℕ → PlayerIn) : Prop :=
  ∀ n, ∃ p, Sync.events (sidIssued inp) n = Sync.events (executions (bridgeInp inp)) n ++ p ∧
    p.length ≤ 1 ∧ (p ≠ [] → (run (bridgeInp inp) n).state ≠ .stIdle)

/-- The processor leaves a cycle after every register write before it addresses the bridge again. -/
def Spaced (inp : ℕ → PlayerIn) : Prop :=
  ∀ n addr data, sidIssued inp n = some (.regWrite addr data) → addressesSid (inp (n + 1)) = false

section Delivery

variable {inp : ℕ → PlayerIn} (hbus : PlayerBus inp) (hno : ∀ n, ¬StalledSidAddress inp n)

include hbus hno

/-- What the bridge takes, the processor sees accepted. -/
theorem sidIssued_of_taken {n : ℕ} (htaken : taken (run (bridgeInp inp) n) (bridgeInp inp n) = true) :
    sidIssued inp n = some (transferOf (bridgeInp inp n) (bridgeInp inp (n + 1))) := by
  rw [← accepted_bridgeInp hbus hno]
  exact (ahbMaster_bridgeInp hbus hno).accepted_of_taken htaken

/-- A register write of the bridge is one of the processor. -/
theorem sidIssued_of_registerWrite {n : ℕ}
    (hwrite : registerWrite (run (bridgeInp inp) n) (bridgeInp inp n) = true) :
    ∃ addr data, sidIssued inp n = some (.regWrite addr data) := by
  obtain ⟨hs, hsel, haddr, hw⟩ := registerWrite_iff.mp hwrite
  have htransfer := sidIssued_of_taken hbus hno (taken_iff.mpr ⟨rfl, hs, hsel⟩)
  rw [transferOf, if_neg (by simp [haddr]), if_pos hw] at htransfer
  exact ⟨_, _, htransfer⟩

/-- With the gaps, the bridge takes everything the processor sees accepted. -/
theorem taken_of_issued (hgap : Spaced inp) {n : ℕ} (hissue : (sidIssued inp n).isSome = true) :
    taken (run (bridgeInp inp) n) (bridgeInp inp n) = true := by
  have h := conforms_of_unstalled hbus hno n
  obtain ⟨haddr, hready⟩ := sidIssued_isSome_iff.mp hissue
  have hbridge := bridge_ready_of_hready h hready
  rw [player_bridge] at hbridge
  refine taken_iff.mpr ⟨rfl, ?_, (hsel_iff h).mpr haddr⟩
  refine (busSafe_run (bridgeInp inp) n).idle_of_ready hbridge fun hs => ?_
  cases n with
  | zero => cases hs
  | succ k =>
    rw [run_succ, state_nextReg rfl, nextState_eq_stWriteReg_iff] at hs
    obtain ⟨addr, data, hwrite⟩ := sidIssued_of_registerWrite hbus hno hs
    rw [hgap k addr data hwrite] at haddr
    cases haddr

/-- What the bridge does not take, the processor does not see accepted. -/
theorem sidIssued_of_not_taken (hgap : Spaced inp) {n : ℕ}
    (hno' : ¬taken (run (bridgeInp inp) n) (bridgeInp inp n) = true) : sidIssued inp n = none := by
  rw [← Option.not_isSome_iff_eq_none]
  exact fun hissue => hno' (taken_of_issued hbus hno hgap hissue)

theorem accepted_eq_sidIssued : accepted (bridgeInp inp) = sidIssued inp := by
  funext n
  exact accepted_bridgeInp hbus hno n

/-- **Nothing is invented**: what the bridge carries out is part of what the processor saw accepted, in
order. -/
theorem executions_sublist (n : ℕ) :
    (Sync.events (executions (bridgeInp inp)) n).Sublist (Sync.events (sidIssued inp) n) := by
  rw [← accepted_eq_sidIssued hbus hno]
  exact (List.sublist_append_left _ _).trans
    ((ahbMaster_bridgeInp hbus hno).executed_sublist_accepted n)

/-- **What the bridge carries out.**  Every execution is a transfer the processor saw accepted, in order, and
has its effect, and the registers and `HRDATA` change by nothing else; and every such transfer is carried out
exactly when none follows a register write at once. -/
theorem sid_delivery :
    (∀ n, (Sync.events (executions (bridgeInp inp)) n).Sublist (Sync.events (sidIssued inp) n) ∧
        Accounted (bridgeInp inp) n) ∧
      (SidDelivers inp ↔ Spaced inp) := by
  have hmaster := ahbMaster_bridgeInp hbus hno
  have hsame := accepted_eq_sidIssued hbus hno
  refine ⟨fun n => ⟨executions_sublist hbus hno n, accounted_run rfl⟩,
    fun hall n addr data hissue => ?_, fun hgap n => ?_⟩
  · -- the data cycle of a register write is a cycle in which what is accepted is lost
    have hnone : NothingLost (bridgeInp inp) := by
      refine ⟨?_, fun k => accounted_run rfl⟩
      rw [hsame]
      exact hall
    have hlost : ∀ k, (run (bridgeInp inp) k).state = .stWriteReg → sidIssued inp k = none := by
      intro k hs
      by_contra hk
      exact hmaster.not_nothingLost hs (by rwa [hsame]) hnone
    have h := conforms_of_unstalled hbus hno n
    obtain ⟨haddr, hready⟩ := sidIssued_isSome_iff.mp (by rw [hissue]; rfl)
    have hsel := (hsel_iff h).mpr haddr
    have hbridge := bridge_ready_of_hready h hready
    rw [player_bridge] at hbridge
    have hidle : (run (bridgeInp inp) n).state = .stIdle := by
      refine (busSafe_run (bridgeInp inp) n).idle_of_ready hbridge fun hs => ?_
      rw [hlost n hs] at hissue
      cases hissue
    have htransfer := sidIssued_of_taken hbus hno (taken_iff.mpr ⟨rfl, hidle, hsel⟩)
    rw [hissue, Option.some.injEq] at htransfer
    have hwrite : registerWrite (run (bridgeInp inp) n) (bridgeInp inp n) = true := by
      rw [registerWrite_iff]
      cases h14 : (bridgeInp inp n).haddr14 <;> cases hw : (bridgeInp inp n).HWRITE <;>
        simp_all [transferOf]
    have hs' : (run (bridgeInp inp) (n + 1)).state = .stWriteReg :=
      state_nextReg_of_registerWrite rfl hwrite
    by_contra haddr'
    have hready' : (m0Out inp (n + 1)).HREADY_M = true := by
      rw [(data_of_slotS1 (conforms_of_unstalled hbus hno (n + 1)) (target_of_issued h haddr hready)).1,
        player_bridge]
      exact (busSafe_run (bridgeInp inp) (n + 1)).ready_of (Or.inr hs')
    have hissue' := sidIssued_isSome_iff.mpr ⟨by simpa using haddr', hready'⟩
    rw [hlost (n + 1) hs'] at hissue'
    cases hissue'
  · refine ⟨inProgress (run (bridgeInp inp) n) (bridgeInp inp n), ?_, inProgress_length_le_one _ _,
      fun hne hidle => hne (inProgress_of_not_hasPending _ (by rw [hidle]; rfl))⟩
    rw [← hsame]
    refine Sync.events_eq_append_pending
      (fun n => inProgress (run (bridgeInp inp) n) (bridgeInp inp n)) rfl
      (fun k => hmaster.delivery_step fun hs => ?_) n
    by_contra hacc
    rw [hsame, ← ne_eq, ← Option.isSome_iff_ne_none] at hacc
    have hidle := (taken_iff.mp (taken_of_issued hbus hno hgap hacc)).2.1
    rw [hs] at hidle
    cases hidle

end Delivery

/-! ### A processor at work -/

/-- The address phase of a read. -/
def readPhase (HADDR : BitVec 32) : AddrPhase := { AddrPhase.zero with HADDR := HADDR, HTRANS := true }

/-- The address phase of a write. -/
def writePhase (HADDR : BitVec 32) : AddrPhase := { readPhase HADDR with HWRITE := true }

/-- The processor sets the divider value to four, writes to the SDRAM, which takes three cycles, writes two
registers of the SID, reads a third, and reads the divider value back.  From the first SID access on every
address phase is there during the data phase before it. -/
def tuneRun (n : ℕ) : PlayerIn where
  M0 :=
    if n = 0 then { phase := writePhase 0x01000004#32, HWDATA := 0 }
    else if n = 1 then { phase := .zero, HWDATA := 0xF04#32 }
    else if n = 2 then { phase := writePhase 0x100#32, HWDATA := 0xF04#32 }
    else if n ≤ 5 then { phase := .zero, HWDATA := 0x5A#32 }
    else if n = 6 then { phase := writePhase 0x01004060#32, HWDATA := 0x5A#32 }
    else if n ≤ 24 then { phase := writePhase 0x01004010#32, HWDATA := 0x70F#32 }
    else if n ≤ 44 then { phase := readPhase 0x0100406C#32, HWDATA := 0x11#32 }
    else if n ≤ 64 then { phase := readPhase 0x01000004#32, HWDATA := 0 }
    else { phase := .zero, HWDATA := 0 }
  SDRAM := { HREADY_AHB := decide (n ≠ 3) && decide (n ≠ 4), hdataout_reg := 0 }
  sidDataI := if n ≤ 44 then 0 else 0xA5#8

/-- After cycle 64 it has nothing more to do. -/
theorem tuneRun_M0 {n : ℕ} (hn : 64 < n) : (tuneRun n).M0 = { phase := .zero, HWDATA := 0 } := by
  simp only [tuneRun]
  rw [if_neg (by omega), if_neg (by omega), if_neg (by omega), if_neg (by omega), if_neg (by omega),
    if_neg (by omega), if_neg (by omega), if_neg (by omega)]

theorem playerBus_tuneRun : PlayerBus tuneRun := by
  refine playerBus_of_held fun n hwait => ?_
  have hshort : ∀ k, k < 65 → (m0Out tuneRun k).HREADY_M = false →
      (tuneRun (k + 1)).M0 = (tuneRun k).M0 := by decide +kernel
  rcases Nat.lt_or_ge n 65 with hlt | hge
  · exact hshort n hlt hwait
  · rw [tuneRun_M0 hge, tuneRun_M0 (Nat.lt_succ_of_lt hge)]

theorem unstalled_tuneRun (n : ℕ) : ¬StalledSidAddress tuneRun n := by
  have hshort : ∀ k, k < 65 → ¬StalledSidAddress tuneRun k := by decide +kernel
  rcases Nat.lt_or_ge n 65 with hlt | hge
  · exact hshort n hlt
  · intro hstall
    have haddr := hstall.1
    rw [addressesSid, tuneRun_M0 hge] at haddr
    cases haddr

/-- A register write has an address of its own. -/
theorem phase_of_regWrite {inp : ℕ → PlayerIn} {n : ℕ} {addr : BitVec 2} {data : BitVec 32}
    (h : sidIssued inp n = some (.regWrite addr data)) :
    addressesSid (inp n) = true ∧ (inp n).M0.phase.HADDR.getLsbD 14 = false ∧
      (inp n).M0.phase.HWRITE = true := by
  refine ⟨(sidIssued_isSome_iff.mp (by rw [h]; rfl)).1, ?_⟩
  unfold sidIssued at h
  split at h
  · rw [Option.some.injEq] at h
    cases h14 : (m0Ports (inp n)).haddr14 <;> cases hw : (m0Ports (inp n)).HWRITE <;>
      simp [transferOf, h14, hw] at h
    exact ⟨h14, hw⟩
  · cases h

/-- Its only register write is that of the divider value. -/
theorem regWrite_tuneRun {n : ℕ} {addr : BitVec 2} {data : BitVec 32}
    (h : sidIssued tuneRun n = some (.regWrite addr data)) : n = 0 := by
  obtain ⟨haddr, h14, hw⟩ := phase_of_regWrite h
  have hshort : ∀ k, k < 65 → addressesSid (tuneRun k) = true →
      (tuneRun k).M0.phase.HADDR.getLsbD 14 = false → (tuneRun k).M0.phase.HWRITE = true → k = 0 := by
    decide +kernel
  rcases Nat.lt_or_ge n 65 with hlt | hge
  · exact hshort n hlt haddr h14 hw
  · rw [tuneRun_M0 hge] at hw
    cases hw

theorem spaced_tuneRun : Spaced tuneRun := by
  intro n addr data hissue
  obtain rfl := regWrite_tuneRun hissue
  rfl

/-- The bridge carries out all five transfers that are for it. -/
theorem sid_delivery_tuneRun : SidDelivers tuneRun :=
  (sid_delivery playerBus_tuneRun unstalled_tuneRun).2.mpr spaced_tuneRun

end SidBridge
