import Mathlib.Tactic.Common
import SidBridge.CoreAhbLite.MasterStage
import SidBridge.CoreAhbLite.SlaveArbiter

/-!
# The slave stage of CoreAHBLite

`COREAHBLITE_SLAVESTAGE` stands between the master stages and one slave.  Its arbiter picks the master of
the address phase; a register keeps the master of the data phase.

* `SlaveReg`, `SlaveStageIn`, `SlaveStageOut` — registers and ports;
* `slaveStage`, `slaveNext` — the processes;
* `slaveStage_of_grant`, `slaveStage_of_no_grant` — the outputs of the address phase;
* `maddrready_eq_false_iff`, `mdataready_eq` — when a master stage is told to wait.
-/

namespace SidBridge.CoreAhbLite

/-- The registers of a slave stage, with that of its arbiter. -/
structure SlaveReg where
  arb : ArbState
  masterDataInProg : Option MasterId
  deriving DecidableEq, Repr

/-- The registers after a reset. -/
def slaveReset : SlaveReg where
  arb := arbReset
  masterDataInProg := none

/-- The inputs of a slave stage: two from the slave, the rest one for each master. -/
structure SlaveStageIn where
  HREADYOUT : Bool
  HRESP : Bool
  MADDRSEL : MasterId → Bool
  MDATASEL : MasterId → Bool
  MPREVDATASLAVEREADY : MasterId → Bool
  MGATED : MasterId → AddrPhase
  HWDATA_M : MasterId → BitVec 32

/-- The outputs of a slave stage: the slave's port, and the answers to the masters.  `phase` is `HADDR`,
`HMASTLOCK`, `HSIZE`, `HTRANS` and `HWRITE`. -/
structure SlaveStageOut where
  HSEL : Bool
  phase : AddrPhase
  HWDATA : BitVec 32
  HREADY_S : Bool
  MADDRREADY : MasterId → Bool
  MDATAREADY : MasterId → Bool
  MHRESP : MasterId → Bool

section Stage

variable (r : SlaveReg) (i : SlaveStageIn)

/-- The port map of `slave_arbiter`. -/
def arbIn : ArbIn where
  MADDRSEL := i.MADDRSEL
  ADDRPHEND := i.HREADYOUT
  GATEDHMASTLOCK := fun m => (i.MGATED m).HMASTLOCK

/-- `masterAddrInProg`. -/
def masterAddrInProg : Option MasterId := arbGrant r.arb (arbIn i)

/-- The process on `masterAddrInProg`: `HSEL`, the signals of the address phase with `preHTRANS`, and
`addrPhMasterHREADY`. -/
def addrPhaseMux : Bool × AddrPhase × Bool :=
  match masterAddrInProg r i with
  | some m => (true, i.MGATED m, i.MPREVDATASLAVEREADY m)
  | none => (false, .zero, true)

/-- `addrPhMasterDataPhComplete`. -/
def addrPhMasterDataPhComplete : Bool :=
  decide (∃ m, masterAddrInProg r i = some m ∧ i.MDATASEL m = true)

/-- The outputs of the stage. -/
def slaveStage : SlaveStageOut :=
  let mux := addrPhaseMux r i
  { HSEL := mux.1
    phase := { mux.2.1 with
      HTRANS := mux.2.1.HTRANS && (mux.2.2 || addrPhMasterDataPhComplete r i) }
    HWDATA :=
      match r.masterDataInProg with
      | some m => i.HWDATA_M m
      | none => 0
    HREADY_S := i.HREADYOUT
    MADDRREADY := fun m =>
      if i.MADDRSEL m && !decide (masterAddrInProg r i = some m) then false
      else if i.MADDRSEL m && decide (masterAddrInProg r i = some m) then i.HREADYOUT
      else true
    MDATAREADY := fun m =>
      if i.MDATASEL m && !decide (r.masterDataInProg = some m) then false
      else if i.MDATASEL m && decide (r.masterDataInProg = some m) then i.HREADYOUT
      else true
    MHRESP := fun m => if r.masterDataInProg = some m then i.HRESP else false }

/-- The registers after a clock edge. -/
def slaveNext : SlaveReg where
  arb := arbStep r.arb (arbIn i)
  masterDataInProg := if i.HREADYOUT then masterAddrInProg r i else r.masterDataInProg

end Stage

variable {r : SlaveReg} {i : SlaveStageIn} {m : MasterId}

/-- A stage that nobody asks for its slave stays as it is after a reset. -/
theorem slaveNext_slaveReset (hasks : ∀ m, i.MADDRSEL m = false) : slaveNext slaveReset i = slaveReset := by
  have harb : slaveArbiter arbReset (arbIn i) = ⟨none, arbReset⟩ := by
    simp [slaveArbiter, arbReset, arbIn, hasks]
  have hgrant : masterAddrInProg slaveReset i = none := by
    rw [masterAddrInProg, arbGrant, show slaveReset.arb = arbReset from rfl, harb]
  rw [slaveNext, hgrant, arbStep, show slaveReset.arb = arbReset from rfl, harb]
  simp [slaveReset]

/-- The address phase of the granted master, its `HTRANS` cleared while an earlier data phase of that
master is stalled elsewhere. -/
theorem slaveStage_of_grant (h : masterAddrInProg r i = some m) :
    (slaveStage r i).HSEL = true ∧
      (slaveStage r i).phase = { i.MGATED m with
        HTRANS := (i.MGATED m).HTRANS && (i.MPREVDATASLAVEREADY m || i.MDATASEL m) } := by
  have hcomplete : addrPhMasterDataPhComplete r i = i.MDATASEL m := by
    simp [addrPhMasterDataPhComplete, h]
  simp [slaveStage, addrPhaseMux, h, hcomplete]

/-- Without a grant the slave is not selected. -/
theorem slaveStage_of_no_grant (h : masterAddrInProg r i = none) :
    (slaveStage r i).HSEL = false ∧ (slaveStage r i).phase = .zero := by
  simp [slaveStage, addrPhaseMux, h, AddrPhase.zero]

/-- The address of a master waits until it is granted by a ready slave. -/
theorem maddrready_eq_false_iff (hsel : i.MADDRSEL m = true) :
    (slaveStage r i).MADDRREADY m = false ↔ ¬(masterAddrInProg r i = some m ∧ i.HREADYOUT = true) := by
  by_cases hgrant : masterAddrInProg r i = some m <;> simp [slaveStage, hsel, hgrant]

/-- The data phase of a master is the slave's when the stage says so, and waits when it does not. -/
theorem mdataready_eq (hsel : i.MDATASEL m = true) :
    (slaveStage r i).MDATAREADY m = (decide (r.masterDataInProg = some m) && i.HREADYOUT) := by
  by_cases hdata : r.masterDataInProg = some m <;> simp [slaveStage, hsel, hdata]

end SidBridge.CoreAhbLite
