import Mathlib.Tactic.Common
import SidBridge.SdramPort
import SidBridge.Transitions
import SidBridge.CoreAhbLite.SoleMaster

/-!
# The player: master, bus core, SDRAM controller and SID bridge

`SID_PLAYER` puts the bridge behind CoreAHBLite: the processor subsystem is master 0, the SDRAM controller
sits in slot 0 and the bridge in slot 1; the other masters and slots are tied off.  The processor and what
lies behind the port of the SDRAM controller are inputs here; the bus core, that port and the bridge are the
machines of the other files.

* `PlayerIn`, `PlayerReg`, `playerGenerics`, `playerMatrixIn`, `sidPort`, `sdramPort`, `playerPorts`,
  `playerNext` — the wiring;
* `player`, `bridgeInp`, `player_bridge`, `player_sdram`, `player_isRun` — a run, and the three runs it
  consists of;
* `playerNextReset`, `player_released` — the bus core may be released later than the others;
* `PlayerBus` — what the processor owes the bus;
* `StalledSidAddress` — the processor addresses the bridge while another slave keeps it waiting;
* `addrTargetOf_player`, `hsel_iff`, `phase_of_hsel`, `data_of_slotS1` — the address map, and the bridge's
  port, read off the processor's;
* `stalledSidAddress_iff`, `conformsUpTo_player` — a stalled address is a selection without a transfer, and
  the bridge keeps to the protocol until that happens;
* `playerBus_of_held`, `playerBus_of_once` — two kinds of processors that keep to the protocol.
-/

namespace SidBridge

open CoreAhbLite

/-- The processor's port. -/
def masterM0 : MasterId := ⟨0, by decide⟩

/-- The slot of the SDRAM controller. -/
def slotS0 : SlotId := ⟨0, by decide⟩

/-- The slot of the bridge. -/
def slotS1 : SlotId := ⟨1, by decide⟩

/-- What comes from outside in one cycle.  The line `HMASTLOCK` of the processor is tied to `'0'`. -/
structure PlayerIn where
  M0 : MasterPort
  SDRAM : SdrIn
  sidDataI : BitVec 8
  deriving DecidableEq, Repr

/-- The registers of the bus core, of the port of the SDRAM controller and of the bridge. -/
structure PlayerReg where
  matrix : MatrixReg
  sdram : SdrReg
  bridge : RegType

/-- The registers after a reset. -/
def playerReset : PlayerReg where
  matrix := matrixReset
  sdram := sdrReset
  bridge := resetReg

/-- The generics of `CoreAHBLite_0`. -/
def playerGenerics : MatrixGenerics where
  map := { MEMSPACE := ⟨2, by decide⟩, HADDR_SHG_CFG := ⟨1, by decide⟩, SC := 0#16 }
  slotEnable m s := decide (m = masterM0) && (decide (s = slotS0) || decide (s = slotS1))

/-- The inputs of masters 1 to 3. -/
def tiedMaster : MasterPort where
  phase := .zero
  HWDATA := 0

/-- The inputs of slots 2 to 16. -/
def tiedSlave : SlavePort where
  HREADYOUT := true
  HRESP := false
  HRDATA := 0

/-- The inputs of slot 1. -/
def bridgeSlave (reg : RegType) : SlavePort where
  HREADYOUT := reg.HREADYOUT
  HRESP := reg.HRESP.getLsbD 0
  HRDATA := reg.HRDATA

section Wiring

variable (x : PlayerReg) (i : PlayerIn)

/-- The port map of `CoreAHBLite_0`. -/
def playerMatrixIn : MatrixIn where
  REMAP_M0 := false
  master m :=
    if m = masterM0 then { i.M0 with phase := { i.M0.phase with HMASTLOCK := false } } else tiedMaster
  slave s :=
    if s = slotS0 then sdrPort x.sdram i.SDRAM
    else if s = slotS1 then bridgeSlave x.bridge
    else tiedSlave

/-- The outputs of slot 0. -/
def sdramPort : SlaveStageOut := slaveOut playerGenerics x.matrix (playerMatrixIn x i) slotS0

/-- The outputs of slot 1. -/
def sidPort : SlaveStageOut := slaveOut playerGenerics x.matrix (playerMatrixIn x i) slotS1

/-- The port map of `SID_BRIDGE_0`. -/
def playerPorts : Ports where
  HRESETN := true
  HADDR := (sidPort x i).phase.HADDR
  HREADYIN := (sidPort x i).HREADY_S
  HSEL := (sidPort x i).HSEL
  HTRANS := BitVec.ofBool (sidPort x i).phase.HTRANS ++ 0#1
  HWDATA := (sidPort x i).HWDATA
  HWRITE := (sidPort x i).phase.HWRITE
  sidDataI := i.sidDataI

/-- What the processor sees: `HREADY_M0`, `HRESP_M0` and `HRDATA_M0`. -/
def playerM0 : DataOut := masterOut playerGenerics x.matrix (playerMatrixIn x i) masterM0

/-- The registers after a clock edge. -/
def playerNext : PlayerReg where
  matrix := matrixNext playerGenerics x.matrix (playerMatrixIn x i)
  sdram := sdrNext x.sdram (sdramPort x i)
  bridge := nextReg x.bridge (playerPorts x i)

end Wiring

/-- The registers in cycle `n` of a run that starts with all machines just reset. -/
def player (inp : ℕ → PlayerIn) (n : ℕ) : PlayerReg := Sync.run playerNext playerReset inp n

section Runs

variable (inp : ℕ → PlayerIn)

/-- The inputs of the bus core along a run. -/
def matrixInp (n : ℕ) : MatrixIn := playerMatrixIn (player inp n) (inp n)

/-- The inputs of the SDRAM controller along a run. -/
def sdramInp (n : ℕ) : SlaveStageOut := sdramPort (player inp n) (inp n)

/-- The inputs of the bridge along a run. -/
def bridgeInp (n : ℕ) : Ports := playerPorts (player inp n) (inp n)

/-- What the processor sees along a run. -/
def m0Out (n : ℕ) : DataOut := playerM0 (player inp n) (inp n)

/-- The bus core does a run of its own. -/
theorem player_isRun :
    Sync.IsRun (matrixNext playerGenerics) (fun n => (player inp n).matrix) (matrixInp inp) :=
  fun _ => rfl

/-- `MSS_READY` resets the bus core alone; the other machines leave their reset before. -/
def playerNextReset (x : PlayerReg) (i : PlayerIn × Bool) : PlayerReg :=
  if i.2 then playerNext x i.1 else { playerNext x i.1 with matrix := matrixReset }

/-- The inputs of the masters are those of the processor and nothing. -/
theorem playerMatrixIn_idle {x : PlayerReg} {i : PlayerIn} (hidle : i.M0.phase.HTRANS = false)
    (m : MasterId) : ((playerMatrixIn x i).master m).phase.HTRANS = false := by
  simp only [playerMatrixIn]
  split
  · exact hidle
  · rfl

theorem matrix_of_idle {n : ℕ} (hidle : ∀ k, k < n → (inp k).M0.phase.HTRANS = false) :
    (player inp n).matrix = matrixReset := by
  induction n with
  | zero => rfl
  | succ n ih =>
    show matrixNext playerGenerics (player inp n).matrix (matrixInp inp n) = matrixReset
    rw [ih fun k hk => hidle k (Nat.lt_succ_of_lt hk)]
    exact matrixNext_matrixReset (playerMatrixIn_idle (hidle n (Nat.lt_succ_self n)))

/-- **The reset of the bus core may last longer** than that of the bridge: as the processor has no transfer
before, the run is the same. -/
theorem player_released {MSS_READY : ℕ → Bool} (hidle : ∀ n, MSS_READY n = false →
    ∀ k, k ≤ n → (inp k).M0.phase.HTRANS = false) (n : ℕ) :
    Sync.run playerNextReset playerReset (fun k => (inp k, MSS_READY k)) n = player inp n := by
  induction n with
  | zero => rfl
  | succ n ih =>
    show playerNextReset (Sync.run playerNextReset playerReset _ n) (inp n, MSS_READY n) =
      playerNext (player inp n) (inp n)
    rw [ih, playerNextReset]
    cases hready : MSS_READY n with
    | true => rfl
    | false =>
      have hreset : (playerNext (player inp n) (inp n)).matrix = matrixReset :=
        matrix_of_idle inp fun k hk => hidle n hready k (Nat.lt_succ_iff.mp hk)
      rw [if_neg Bool.false_ne_true, ← hreset]

theorem player_matrix_succ (n : ℕ) : (player inp (n + 1)).matrix =
    matrixNext playerGenerics (player inp n).matrix (matrixInp inp n) := rfl

/-- The port of the SDRAM controller does a run of its own. -/
theorem player_sdram : Sync.IsRun sdrNext (fun n => (player inp n).sdram) (sdramInp inp) :=
  fun _ => rfl

/-- **The bridge does a run of its own**, on the inputs the bus core gives it. -/
theorem player_bridge (n : ℕ) : (player inp n).bridge = run (bridgeInp inp) n := by
  induction n with
  | zero => rfl
  | succ n ih =>
    rw [run_succ, ← ih]
    rfl

end Runs

/-- The address of the processor's transfer lies in slot 1. -/
def addressesSid (i : PlayerIn) : Bool :=
  i.M0.phase.HTRANS && decide ((nibble i.M0.phase.HADDR 24).val = 1)

/-- **The protocol, at the port of the processor.**  It keeps an address phase and the data of a write while
it is told to wait.

`address_held` is stricter than AHB-Lite, which lets it cancel the address phase, by IDLE, in the second cycle
of an ERROR response. -/
structure PlayerBus (inp : ℕ → PlayerIn) : Prop where
  address_held : ∀ n, (m0Out inp n).HREADY_M = false → (inp n).M0.phase.HTRANS = true →
    (inp (n + 1)).M0.phase = (inp n).M0.phase
  data_held : ∀ a, (inp a).M0.phase.HTRANS = true → (inp a).M0.phase.HWRITE = true →
    (m0Out inp a).HREADY_M = true → ∀ k, a < k →
    (∀ j, a < j → j ≤ k → (m0Out inp j).HREADY_M = false) →
      (inp k).M0.HWDATA = (inp (a + 1)).M0.HWDATA

/-- The processor presents an address of the bridge in a cycle in which its data phase, on another slave
or on none, is not over. -/
def StalledSidAddress (inp : ℕ → PlayerIn) (n : ℕ) : Prop :=
  addressesSid (inp n) = true ∧ (m0Out inp n).HREADY_M = false ∧
    ((player inp n).matrix.master masterM0).target ≠ .slot slotS1

/-! ### The tied-off ports -/

theorem slotEnable_iff {m : MasterId} {s : SlotId} :
    playerGenerics.slotEnable m s = true ↔ m = masterM0 ∧ (s = slotS0 ∨ s = slotS1) := by
  simp [playerGenerics]

theorem slotConnected_iff {s : SlotId} :
    slotConnected playerGenerics s = true ↔ s = slotS0 ∨ s = slotS1 := by
  simp [slotConnected, slotEnable_iff]

theorem slotEnable_slotS0 : playerGenerics.slotEnable masterM0 slotS0 = true :=
  slotEnable_iff.mpr ⟨rfl, Or.inl rfl⟩

theorem slotEnable_slotS1 : playerGenerics.slotEnable masterM0 slotS1 = true :=
  slotEnable_iff.mpr ⟨rfl, Or.inr rfl⟩

theorem player_soleMaster : SoleMaster playerGenerics masterM0 :=
  fun _ _ hen => (slotEnable_iff.mp hen).1

theorem player_noLocks (inp : ℕ → PlayerIn) : NoLocks (matrixInp inp) := by
  intro n m
  simp only [matrixInp, playerMatrixIn]
  split <;> rfl

/-- The slot of an address is its second nibble. -/
theorem decodedSlot_player (HADDR : BitVec 32) :
    decodedSlot playerGenerics.map HADDR false = some (nibble HADDR 24).castSucc := by
  simp [decodedSlot, playerGenerics, Generics.MSB_ADDR, calcMsbAddr, swapSlots]

/-- The core hands every address on as it is. -/
theorem absoluteaddr_player (HADDR : BitVec 32) :
    (addressDecoder playerGenerics.map HADDR false).ABSOLUTEADDR = HADDR := by
  simp only [addressDecoder, playerGenerics, slotCase, if_true]
  rw [if_neg (by decide)]
  split
  · rfl
  · split <;> rfl

theorem htrans1_ofBool (b : Bool) : (BitVec.ofBool b ++ 0#1).getLsbD 1 = b := by
  cases b <;> rfl

section Wires

variable (inp : ℕ → PlayerIn) (n : ℕ)

theorem matrixInp_masterM0 : (matrixInp inp n).master masterM0 =
    { (inp n).M0 with phase := { (inp n).M0.phase with HMASTLOCK := false } } := by
  simp [matrixInp, playerMatrixIn]

theorem matrixInp_slotS0 : (matrixInp inp n).slave slotS0 = sdrPort (player inp n).sdram (inp n).SDRAM := by
  simp [matrixInp, playerMatrixIn]

theorem matrixInp_slotS1 : (matrixInp inp n).slave slotS1 = bridgeSlave (player inp n).bridge := by
  simp [matrixInp, playerMatrixIn, slotS0, slotS1]

/-- `HREADYIN` of the SDRAM controller is its own `HREADY`. -/
theorem sdramInp_hready : (sdramInp inp n).HREADY_S =
    (sdrPort (player inp n).sdram (inp n).SDRAM).HREADYOUT := by
  show intHREADYOUT playerGenerics (matrixInp inp n) slotS0 = _
  rw [intHREADYOUT_of_enabled slotEnable_slotS0, matrixInp_slotS0]

/-- `HREADYIN` of the bridge is its own `HREADYOUT`. -/
theorem bridgeInp_hreadyin : (bridgeInp inp n).HREADYIN = (player inp n).bridge.HREADYOUT := by
  show intHREADYOUT playerGenerics (matrixInp inp n) slotS1 = _
  rw [intHREADYOUT_of_enabled slotEnable_slotS1, matrixInp_slotS1]
  rfl

theorem bridgeInp_hsel : (bridgeInp inp n).HSEL =
    (slaveOut playerGenerics (player inp n).matrix (matrixInp inp n) slotS1).HSEL := rfl

theorem bridgeInp_htrans1 : (bridgeInp inp n).htrans1 =
    (slaveOut playerGenerics (player inp n).matrix (matrixInp inp n) slotS1).phase.HTRANS :=
  htrans1_ofBool _

end Wires

/-! ### The bridge's port, read off the processor's -/

/-- The bus of the player keeps to the protocol up to cycle `n`. -/
abbrev Conforms (inp : ℕ → PlayerIn) (n : ℕ) : Prop :=
  ConformsUpTo playerGenerics (fun k => (player inp k).matrix) (matrixInp inp) n

section Idle

variable {inp : ℕ → PlayerIn} {n : ℕ}

theorem wellFormed_player (inp : ℕ → PlayerIn) (n : ℕ) : ((player inp n).matrix.master masterM0).WellFormed
    (playerGenerics.slotEnable masterM0) :=
  wellFormed_run (player_isRun inp) rfl masterM0 n

theorem addrTargetOf_of_pregated {p : AddrPhase}
    (hpre : pregated ((player inp n).matrix.master masterM0)
      ((matrixInp inp n).master masterM0).phase = p) :
    addrTargetOf playerGenerics (player inp n).matrix (matrixInp inp n) masterM0 =
      if p.HTRANS then .slot (nibble p.HADDR 24).castSucc else .idle := by
  simp only [addrTargetOf, addrTarget, hpre]
  rw [show remapOf (matrixInp inp n) masterM0 = false from rfl, decodedSlot_player]
  rfl

theorem gatedOf_of_pregated {p : AddrPhase}
    (hpre : pregated ((player inp n).matrix.master masterM0)
      ((matrixInp inp n).master masterM0).phase = p) :
    gatedOf playerGenerics (player inp n).matrix (matrixInp inp n) masterM0 = p := by
  simp only [gatedOf, gated, addressDecode, hpre]
  rw [show remapOf (matrixInp inp n) masterM0 = false from rfl, absoluteaddr_player]

variable (hs : ((player inp n).matrix.master masterM0).addrRegSM = .idle)

include hs

theorem pregated_player :
    pregated ((player inp n).matrix.master masterM0) ((matrixInp inp n).master masterM0).phase =
      { (inp n).M0.phase with HMASTLOCK := false } := by
  rw [(wellFormed_player inp n).pregated_of_idle hs, matrixInp_masterM0]

/-- **The address map**: a transfer addresses the slot of its second nibble. -/
theorem addrTargetOf_player :
    addrTargetOf playerGenerics (player inp n).matrix (matrixInp inp n) masterM0 =
      if (inp n).M0.phase.HTRANS then .slot (nibble (inp n).M0.phase.HADDR 24).castSucc else .idle := by
  rw [addrTargetOf_of_pregated (pregated_player hs)]

theorem asks_iff :
    addrTargetOf playerGenerics (player inp n).matrix (matrixInp inp n) masterM0 = .slot slotS1 ↔
      addressesSid (inp n) = true := by
  rw [addrTargetOf_player hs, addressesSid]
  cases (inp n).M0.phase.HTRANS with
  | true => simp [slotS1, Fin.ext_iff]
  | false => simp

/-- The core hands the address phase on as it is. -/
theorem gatedOf_player : gatedOf playerGenerics (player inp n).matrix (matrixInp inp n) masterM0 =
    { (inp n).M0.phase with HMASTLOCK := false } :=
  gatedOf_of_pregated (pregated_player hs)

end Idle

section Conforming

variable {inp : ℕ → PlayerIn} {n : ℕ} (h : Conforms inp n)

include h

theorem idle_player : ((player inp n).matrix.master masterM0).addrRegSM = .idle :=
  idle_sole h (player_noLocks inp) player_soleMaster

/-- What the processor sees accepted has its data phase in the next cycle. -/
theorem target_of_asks {s : SlotId}
    (hasks : addrTargetOf playerGenerics (player inp n).matrix (matrixInp inp n) masterM0 = .slot s)
    (hready : (m0Out inp n).HREADY_M = true) :
    ((player inp (n + 1)).matrix.master masterM0).target = .slot s := by
  have hprev := (matrixInv_run h).hready_of_idle (idle_player h)
  rw [player_matrix_succ, target_matrixNext (wellFormed_player inp n), ← hprev,
    show (masterOut playerGenerics (player inp n).matrix (matrixInp inp n) masterM0).HREADY_M = true from
      hready, if_pos rfl]
  exact hasks

/-- **The bridge is selected whenever the processor addresses it**, whatever its data phase. -/
theorem hsel_iff : (bridgeInp inp n).HSEL = true ↔ addressesSid (inp n) = true := by
  rw [bridgeInp_hsel, ← asks_iff (idle_player h)]
  constructor
  · intro hsel
    by_contra hno
    rw [port_of_not_asks h player_soleMaster hno] at hsel
    cases hsel
  · intro hasks
    exact (port_of_asks h (player_noLocks inp) player_soleMaster slotEnable_slotS1 hasks).1

/-- **The address phase at the bridge** is the processor's, except for the bit that makes it a transfer. -/
theorem phase_of_hsel (hsel : (bridgeInp inp n).HSEL = true) :
    (bridgeInp inp n).HADDR = (inp n).M0.phase.HADDR ∧
      (bridgeInp inp n).HWRITE = (inp n).M0.phase.HWRITE ∧
      (bridgeInp inp n).htrans1 = ((m0Out inp n).HREADY_M ||
        decide (((player inp n).matrix.master masterM0).target = .slot slotS1)) := by
  have hasks := (asks_iff (idle_player h)).mpr ((hsel_iff h).mp hsel)
  have hphase := (port_of_asks h (player_noLocks inp) player_soleMaster slotEnable_slotS1 hasks).2
  rw [gatedOf_player (idle_player h)] at hphase
  refine ⟨?_, ?_, ?_⟩
  · show (slaveOut playerGenerics (player inp n).matrix (matrixInp inp n) slotS1).phase.HADDR = _
    rw [hphase]
  · show (slaveOut playerGenerics (player inp n).matrix (matrixInp inp n) slotS1).phase.HWRITE = _
    rw [hphase]
  · rw [bridgeInp_htrans1, hphase]
    rfl

/-- **The phantom, seen at the bridge**: a selection without a transfer. -/
theorem stalledSidAddress_iff : StalledSidAddress inp n ↔
    (bridgeInp inp n).HSEL = true ∧ (bridgeInp inp n).htrans1 = false := by
  constructor
  · rintro ⟨haddr, hwait, htarget⟩
    have hsel := (hsel_iff h).mpr haddr
    refine ⟨hsel, ?_⟩
    rw [(phase_of_hsel h hsel).2.2, hwait, decide_eq_false htarget]
    rfl
  · rintro ⟨hsel, htrans⟩
    rw [(phase_of_hsel h hsel).2.2, Bool.or_eq_false_iff, decide_eq_false_iff_not] at htrans
    exact ⟨(hsel_iff h).mp hsel, htrans⟩

/-- **The data phase at the bridge** is the processor's. -/
theorem data_of_slotS1 (htarget : ((player inp n).matrix.master masterM0).target = .slot slotS1) :
    m0Out inp n =
        { HREADY_M := (player inp n).bridge.HREADYOUT
          HRESP := (player inp n).bridge.HRESP.getLsbD 0
          HRDATA := (player inp n).bridge.HRDATA
          PREVDATASLAVEREADY := (player inp n).bridge.HREADYOUT } ∧
      (bridgeInp inp n).HWDATA = (inp n).M0.HWDATA := by
  have hdata := data_of_target h (player_noLocks inp) player_soleMaster slotEnable_slotS1 htarget
  rw [matrixInp_slotS1, matrixInp_masterM0] at hdata
  exact hdata

/-- While the bridge takes time, the processor is in a data phase with it. -/
theorem target_of_bridge_busy (hbusy : (player inp n).bridge.HREADYOUT = false) :
    ((player inp n).matrix.master masterM0).target = .slot slotS1 := by
  refine target_of_busy h player_soleMaster slotEnable_slotS1 ?_
  rw [matrixInp_slotS1]
  exact hbusy

end Conforming

/-- `HREADYOUT` falls at a request of the SID, and at no other edge. -/
theorem hreadyout_falls {reg : RegType} {i : Ports} (h : i.HRESETN = true)
    (hbusy : (nextReg reg i).HREADYOUT = false) : reg.HREADYOUT = false ∨ sidRequest reg i = true := by
  rw [nextReg_eq reg h] at hbusy
  cases hreq : sidRequest reg i with
  | true => exact Or.inr rfl
  | false =>
    left
    simp only [hreq, Bool.false_eq_true, if_false] at hbusy
    split at hbusy
    · cases hbusy
    · exact hbusy

/-- **The bridge keeps to the protocol** until it is selected in a cycle that is no transfer. -/
theorem conformsUpTo_player {inp : ℕ → PlayerIn} {n : ℕ} (hbus : PlayerBus inp)
    (hno : ∀ k, k < n → ¬StalledSidAddress inp k) : Conforms inp n := by
  induction n with
  | zero =>
    refine ⟨player_isRun inp, rfl, fun s hs => ?_, fun k hk => absurd hk (Nat.not_lt_zero k)⟩
    rcases slotConnected_iff.mp hs with rfl | rfl
    · rfl
    · rfl
  | succ n ih =>
    have h := ih fun k hk => hno k (Nat.lt_succ_of_lt hk)
    refine ⟨h.isRun, h.reset, h.ready, fun k hk => ?_⟩
    rcases Nat.lt_or_eq_of_le (Nat.lt_succ_iff.mp hk) with hlt | rfl
    · exact h.edge k hlt
    refine ⟨rfl, fun m hwait htrans => ?_, fun s hs hbusy => ?_⟩
    · by_cases hm : m = masterM0
      · subst hm
        rw [matrixInp_masterM0] at htrans
        rw [matrixInp_masterM0, matrixInp_masterM0]
        simp only [hbus.address_held k hwait htrans]
      · simp [matrixInp, playerMatrixIn, hm, tiedMaster, AddrPhase.zero] at htrans
    · rcases slotConnected_iff.mp hs with rfl | rfl
      · rw [matrixInp_slotS0] at hbusy ⊢
        refine (busy_owed (player_sdram inp) (i := fun j => (inp j).SDRAM) (sdramInp_hready inp k)
          hbusy).imp_right fun htaken => ?_
        exact Bool.and_eq_true_iff.mp (Bool.and_eq_true_iff.mp htaken).1
      · rw [matrixInp_slotS1] at hbusy ⊢
        rcases hreadyout_falls rfl hbusy with hbefore | hreq
        · exact Or.inl hbefore
        · right
          have hsel := (sidRequest_iff.mp hreq).2.1
          refine ⟨hsel, ?_⟩
          by_contra htrans
          rw [← bridgeInp_htrans1, Bool.not_eq_true] at htrans
          exact hno k (Nat.lt_succ_self k) ((stalledSidAddress_iff h).mpr ⟨hsel, htrans⟩)

/-! ### Some processors -/

theorem hready_zero (inp : ℕ → PlayerIn) : (m0Out inp 0).HREADY_M = true := by
  show (masterOut playerGenerics matrixReset (matrixInp inp 0) masterM0).HREADY_M = true
  rw [masterOut_matrixReset]

instance (inp : ℕ → PlayerIn) (n : ℕ) : Decidable (StalledSidAddress inp n) :=
  inferInstanceAs (Decidable (_ ∧ _ ∧ _))

/-- A processor whose port does not change while it is told to wait keeps to the protocol. -/
theorem playerBus_of_held {inp : ℕ → PlayerIn}
    (hheld : ∀ n, (m0Out inp n).HREADY_M = false → (inp (n + 1)).M0 = (inp n).M0) : PlayerBus inp where
  address_held n hwait _ := by rw [hheld n hwait]
  data_held a _ _ _ k hk hwait := by
    induction k, hk using Nat.le_induction with
    | base => rfl
    | succ k hk ih =>
      rw [hheld k (hwait k hk (Nat.le_succ k))]
      exact ih fun j hj hle => hwait j hj (Nat.le_succ_of_le hle)

section Once

variable {inp : ℕ → PlayerIn} (honce : ∀ n, (inp (n + 1)).M0.phase.HTRANS = false)

include honce

theorem htrans_of_once {n : ℕ} (htrans : (inp n).M0.phase.HTRANS = true) : n = 0 := by
  cases n with
  | zero => rfl
  | succ n =>
    rw [honce n] at htrans
    cases htrans

/-- A processor that has a transfer in cycle 0 and no other keeps to the protocol. -/
theorem playerBus_of_once (hdata : ∀ k n, (inp k).M0.HWDATA = (inp n).M0.HWDATA) : PlayerBus inp where
  address_held n hwait htrans := by
    obtain rfl := htrans_of_once honce htrans
    rw [hready_zero] at hwait
    cases hwait
  data_held a _ _ _ k _ _ := hdata k (a + 1)

/-- Its transfer is never stalled. -/
theorem unstalled_of_once (n : ℕ) : ¬StalledSidAddress inp n := by
  rintro ⟨haddr, hwait, -⟩
  obtain rfl := htrans_of_once honce (Bool.and_eq_true_iff.mp haddr).1
  rw [hready_zero] at hwait
  cases hwait

end Once

end SidBridge
