import Mathlib.Tactic.Common
import SidBridge.CoreAhbLite.AddressDecoder

/-!
# The master stage of CoreAHBLite

`COREAHBLITE_MASTERSTAGE` stands between one master and the slave stages.  It decodes the address of the
transfer, keeps a copy of an address phase the master saw accepted before its slave took it, and puts
together what the master sees in the data phase.  Accesses that no slave answers for get their response
from `COREAHBLITE_DEFAULTSLAVESM`.

* `AddrPhase` — the signals of an address phase;
* `MasterReg`, `SlaveView` — the registers of a stage, and what the slave side hands in;
* `defaultSlaveSM`, `dataPhase`, `addrRegNext`, `masterNext` — the processes;
* `Target`, `MasterReg.target`, `addrTarget` — what the data phase and the address phase are about;
* `MasterReg.WellFormed`, `wellFormed_masterNext`, `target_masterNext` — the select registers hold one slot
  at most, and a ready slave moves the address phase into the data phase;
* `addrRegSM_masterNext`, `masterNext_of_registered` — when a stage holds an address phase back, and that it
  does not look at its master while it does.
-/

namespace SidBridge.CoreAhbLite

/-- The signals of an address phase.  `HTRANS` is the one bit of it the core passes on: set for a
transfer. -/
@[ext] structure AddrPhase where
  HADDR : BitVec 32
  HMASTLOCK : Bool
  HSIZE : BitVec 3
  HTRANS : Bool
  HWRITE : Bool
  deriving DecidableEq, Repr

/-- All signals at zero. -/
def AddrPhase.zero : AddrPhase where
  HADDR := 0
  HMASTLOCK := false
  HSIZE := 0
  HTRANS := false
  HWRITE := false

/-- The states `IDLE` and `REGISTERED` of `addrRegSMCurrentState`. -/
inductive AddrRegState where
  | idle
  | registered
  deriving DecidableEq, Repr

/-- The states `IDLE` and `HRESPEXTEND` of `defSlaveSMCurrentState`. -/
inductive DefSlaveState where
  | idle
  | hrespExtend
  deriving DecidableEq, Repr

/-- The registers of a master stage, with those of its default slave.  `regAddr` is `regHADDR`,
`regHMASTLOCK`, `regHSIZE`, `regHTRANS` and `regHWRITE`. -/
structure MasterReg where
  regAddr : AddrPhase
  masterRegAddrSel : Bool
  addrRegSM : AddrRegState
  SDATASEL : SlotId → Bool
  RESERVEDDATASEL : Bool
  defSlaveSM : DefSlaveState

/-- The registers after a reset. -/
def masterReset : MasterReg where
  regAddr := .zero
  masterRegAddrSel := false
  addrRegSM := .idle
  SDATASEL := fun _ => false
  RESERVEDDATASEL := false
  defSlaveSM := .idle

/-- What the slave side hands to a master stage, a bit or a word for each slot. -/
structure SlaveView where
  SADDRREADY : SlotId → Bool
  SDATAREADY : SlotId → Bool
  SHRESP : SlotId → Bool
  HRDATA_S : SlotId → BitVec 32
  HREADYOUT_S : SlotId → Bool

/-- What a master stage shows in the data phase: three outputs to the master, one to the slave side. -/
structure DataOut where
  HREADY_M : Bool
  HRESP : Bool
  HRDATA : BitVec 32
  PREVDATASLAVEREADY : Bool
  deriving DecidableEq, Repr

/-! ### The processes -/

/-- `COREAHBLITE_DEFAULTSLAVESM`: `DEFSLAVEDATAREADY`, `HRESP_DEFAULT` and the next state. -/
def defaultSlaveSM (s : DefSlaveState) (DEFSLAVEDATASEL : Bool) : Bool × Bool × DefSlaveState :=
  match s with
  | .idle => if DEFSLAVEDATASEL then (false, true, .hrespExtend) else (true, false, .idle)
  | .hrespExtend => (true, true, .idle)

section Stage

variable (g : Generics) (en : SlotId → Bool) (REMAP : Bool) (r : MasterReg) (p : AddrPhase)
  (v : SlaveView)

/-- The address phase the stage works on: the master's, or the one it keeps. -/
def pregated : AddrPhase := if r.masterRegAddrSel = false then p else r.regAddr

/-- `address_decode`. -/
def addressDecode : AddrDecOut := addressDecoder g (pregated r p).HADDR REMAP

/-- The outputs `GATEDHADDR` to `GATEDHWRITE`. -/
def gated : AddrPhase :=
  { pregated r p with HADDR := (addressDecode g REMAP r p).ABSOLUTEADDR }

/-- `SADDRSEL`. -/
def saddrsel : SlotId → Bool :=
  if (pregated r p).HTRANS then (addressDecode g REMAP r p).ADDRDEC else fun _ => false

/-- `RESERVEDADDRSELInt`. -/
def reservedAddrSel : Bool :=
  if (pregated r p).HTRANS then (addressDecode g REMAP r p).RESERVEDDEC else false

/-- `DEFSLAVEDATASEL`: the data phase belongs to a slot that is not enabled, or to none. -/
def defSlaveDataSel : Bool :=
  decide (∃ s, r.SDATASEL s = true ∧ en s = false) || r.RESERVEDDATASEL

/-- What the default slave makes the stage show. -/
def defaultDataPhase : DataOut :=
  let d := defaultSlaveSM r.defSlaveSM (defSlaveDataSel en r)
  { HREADY_M := d.1, HRESP := d.2.1, HRDATA := 0, PREVDATASLAVEREADY := d.1 }

/-- The process on `datasel_onehot`. -/
def dataPhase : DataOut :=
  if r.RESERVEDDATASEL then defaultDataPhase en r
  else
    match hotSlot r.SDATASEL with
    | some s =>
        if en s then
          { HREADY_M := v.SDATAREADY s
            HRESP := v.SHRESP s
            HRDATA := v.HRDATA_S s
            PREVDATASLAVEREADY := v.HREADYOUT_S s }
        else defaultDataPhase en r
    | none => { HREADY_M := true, HRESP := false, HRDATA := 0, PREVDATASLAVEREADY := true }

/-- The process on `addrRegSMCurrentState`: `masterAddrClockEnable`, `d_masterRegAddrSel` and the next
state. -/
def addrRegNext : Bool × Bool × AddrRegState :=
  let sAddrDec := (addressDecode g REMAP r p).ADDRDEC
  match r.addrRegSM with
  | .idle =>
      if p.HTRANS && (dataPhase en r v).HREADY_M &&
          decide (∃ s, (sAddrDec s && !v.SADDRREADY s) = true) then
        (true, true, .registered)
      else
        (false, false, .idle)
  | .registered =>
      if decide (∃ s, (sAddrDec s && v.SADDRREADY s) = true) then
        (false, false, .idle)
      else
        (false, true, .registered)

/-- The registers after a clock edge. -/
def masterNext : MasterReg :=
  let sm := addrRegNext g en REMAP r p v
  let ready := (dataPhase en r v).PREVDATASLAVEREADY
  { regAddr := if sm.1 then p else r.regAddr
    masterRegAddrSel := sm.2.1
    addrRegSM := sm.2.2
    SDATASEL := if ready then saddrsel g REMAP r p else r.SDATASEL
    RESERVEDDATASEL := if ready then reservedAddrSel g REMAP r p else r.RESERVEDDATASEL
    defSlaveSM := (defaultSlaveSM r.defSlaveSM (defSlaveDataSel en r)).2.2 }

end Stage

/-! ### What a phase is about -/

/-- No transfer, a reserved address, or a slot. -/
inductive Target where
  | idle
  | reserved
  | slot (s : SlotId)
  deriving DecidableEq, Repr

/-- The slot, if it is one. -/
def Target.slot? : Target → Option SlotId
  | .slot s => some s
  | _ => none

/-- A transfer to an address in a slot, or in none. -/
def Target.ofDecoded : Option SlotId → Target
  | some s => .slot s
  | none => .reserved

@[simp] theorem Target.slot?_ofDecoded (d : Option SlotId) : (Target.ofDecoded d).slot? = d := by
  cases d <;> rfl

theorem Target.slot?_eq_some_iff {t : Target} {s : SlotId} : t.slot? = some s ↔ t = .slot s := by
  cases t <;> simp [Target.slot?]

/-- The data phase, read off the select registers. -/
def MasterReg.target (r : MasterReg) : Target :=
  if r.RESERVEDDATASEL then .reserved
  else
    match hotSlot r.SDATASEL with
    | some s => .slot s
    | none => .idle

/-- The address phase, read off the address. -/
def addrTarget (g : Generics) (REMAP : Bool) (r : MasterReg) (p : AddrPhase) : Target :=
  if (pregated r p).HTRANS then .ofDecoded (decodedSlot g (pregated r p).HADDR REMAP) else .idle

/-- The default slave answers for a data phase. -/
def Target.isDefault (en : SlotId → Bool) : Target → Bool
  | .idle => false
  | .reserved => true
  | .slot s => !en s

theorem saddrsel_eq (g : Generics) (REMAP : Bool) (r : MasterReg) (p : AddrPhase) :
    saddrsel g REMAP r p = selectSlot (addrTarget g REMAP r p).slot? := by
  unfold saddrsel addrTarget addressDecode
  split
  · rw [(addressDecoder_eq g _ REMAP).1, Target.slot?_ofDecoded]
  · rfl

theorem saddrsel_eq_true_iff {g : Generics} {REMAP : Bool} {r : MasterReg} {p : AddrPhase}
    {s : SlotId} : saddrsel g REMAP r p s = true ↔ addrTarget g REMAP r p = .slot s := by
  rw [saddrsel_eq, selectSlot_eq_true_iff, Target.slot?_eq_some_iff]

theorem reservedAddrSel_eq (g : Generics) (REMAP : Bool) (r : MasterReg) (p : AddrPhase) :
    reservedAddrSel g REMAP r p = decide (addrTarget g REMAP r p = .reserved) := by
  unfold reservedAddrSel addrTarget addressDecode
  split
  · rw [(addressDecoder_eq g _ REMAP).2]
    cases decodedSlot g (pregated r p).HADDR REMAP <;> simp [Target.ofDecoded]
  · rfl

/-- **The registers of a stage agree with each other**: the copy is in use exactly in the state
`REGISTERED`, one slot at most is selected, and the default slave is in mid-response only when it is asked. -/
structure MasterReg.WellFormed (en : SlotId → Bool) (r : MasterReg) : Prop where
  regSel : r.masterRegAddrSel = decide (r.addrRegSM = .registered)
  dataSel : r.SDATASEL = selectSlot r.target.slot?
  reserved : r.RESERVEDDATASEL = decide (r.target = .reserved)
  defSlave : r.defSlaveSM = .hrespExtend → r.target.isDefault en = true

theorem wellFormed_masterReset (en : SlotId → Bool) : masterReset.WellFormed en := by
  have htarget : masterReset.target = .idle := by decide
  refine ⟨rfl, ?_, ?_, fun h => ?_⟩
  · rw [htarget]
    rfl
  · rw [htarget]
    rfl
  · cases h

section Reset

variable {g : Generics} {en : SlotId → Bool} {REMAP : Bool} {p : AddrPhase} {v : SlaveView}
  (hidle : p.HTRANS = false)

include hidle

theorem saddrsel_masterReset : saddrsel g REMAP masterReset p = fun _ => false := by
  rw [saddrsel, show pregated masterReset p = p from rfl, hidle]
  rfl

theorem reservedAddrSel_masterReset : reservedAddrSel g REMAP masterReset p = false := by
  rw [reservedAddrSel, show pregated masterReset p = p from rfl, hidle]
  rfl

/-- A stage whose master has no transfer stays as it is after a reset. -/
theorem masterNext_masterReset : masterNext g en REMAP masterReset p v = masterReset := by
  have hsm : addrRegNext g en REMAP masterReset p v = (false, false, .idle) := by
    simp [addrRegNext, masterReset, hidle]
  have hdef : (defaultSlaveSM masterReset.defSlaveSM (defSlaveDataSel en masterReset)).2.2 = .idle := by
    simp [defaultSlaveSM, defSlaveDataSel, masterReset]
  simp only [masterNext, hsm, hdef, saddrsel_masterReset hidle, reservedAddrSel_masterReset hidle]
  cases (dataPhase en masterReset v).PREVDATASLAVEREADY with
  | false => rfl
  | true => rfl

end Reset

/-- The select registers of a target are read back as that target. -/
theorem target_of_select {r : MasterReg} {t : Target} (hsel : r.SDATASEL = selectSlot t.slot?)
    (hres : r.RESERVEDDATASEL = decide (t = .reserved)) : r.target = t := by
  unfold MasterReg.target
  rw [hsel, hres, hotSlot_selectSlot]
  cases t <;> rfl

namespace MasterReg.WellFormed

variable {g : Generics} {en : SlotId → Bool} {REMAP : Bool} {r : MasterReg} {p : AddrPhase}
  {v : SlaveView} (h : r.WellFormed en)

include h

theorem pregated_of_idle (hs : r.addrRegSM = .idle) : pregated r p = p := by
  simp [pregated, h.regSel, hs]

theorem pregated_of_registered (hs : r.addrRegSM = .registered) : pregated r p = r.regAddr := by
  simp [pregated, h.regSel, hs]

/-- The default slave is asked exactly in its own data phases. -/
theorem defSlaveDataSel_eq : defSlaveDataSel en r = r.target.isDefault en := by
  unfold defSlaveDataSel
  rw [h.dataSel, h.reserved]
  cases htarget : r.target with
  | idle => simp [Target.slot?, Target.isDefault]
  | reserved => simp [Target.isDefault]
  | slot s => simp [Target.slot?, Target.isDefault, selectSlot]

/-- The data phase of an enabled slot is the slave's. -/
theorem dataPhase_of_slot {s : SlotId} (ht : r.target = .slot s) (hen : en s = true) :
    dataPhase en r v =
      { HREADY_M := v.SDATAREADY s
        HRESP := v.SHRESP s
        HRDATA := v.HRDATA_S s
        PREVDATASLAVEREADY := v.HREADYOUT_S s } := by
  simp [dataPhase, h.dataSel, h.reserved, ht, Target.slot?, hen]

/-- Without a data phase the stage is ready. -/
theorem dataPhase_of_idle (ht : r.target = .idle) :
    dataPhase en r v =
      { HREADY_M := true, HRESP := false, HRDATA := 0, PREVDATASLAVEREADY := true } := by
  simp [dataPhase, h.dataSel, h.reserved, ht, Target.slot?]

/-- **The error response**: one cycle with more time asked for, then one that ends the data phase. -/
theorem dataPhase_of_isDefault (ht : r.target.isDefault en = true) :
    dataPhase en r v =
      { HREADY_M := decide (r.defSlaveSM = .hrespExtend)
        HRESP := true
        HRDATA := 0
        PREVDATASLAVEREADY := decide (r.defSlaveSM = .hrespExtend) } := by
  have hdefault : dataPhase en r v = defaultDataPhase en r := by
    cases htarget : r.target with
    | idle =>
      rw [htarget] at ht
      cases ht
    | reserved => simp [dataPhase, h.reserved, htarget]
    | slot s =>
      have hen : en s = false := by simpa [htarget, Target.isDefault] using ht
      simp [dataPhase, h.dataSel, h.reserved, htarget, Target.slot?, hen]
  rw [hdefault, defaultDataPhase, h.defSlaveDataSel_eq, ht]
  cases r.defSlaveSM <;> rfl

/-- Ready for the master and ready for the slave side are the same, unless a slave stage is in between. -/
theorem hready_eq_of_not_slot (ht : ∀ s, r.target = .slot s → en s = false) :
    (dataPhase en r v).HREADY_M = (dataPhase en r v).PREVDATASLAVEREADY := by
  cases htarget : r.target with
  | idle => rw [h.dataPhase_of_idle htarget]
  | reserved => rw [h.dataPhase_of_isDefault (by rw [htarget]; rfl)]
  | slot s => rw [h.dataPhase_of_isDefault (by simp [htarget, Target.isDefault, ht s htarget])]

/-- **When the slave side is ready, the address phase becomes the data phase.** -/
theorem target_masterNext :
    (masterNext g en REMAP r p v).target =
      if (dataPhase en r v).PREVDATASLAVEREADY then addrTarget g REMAP r p else r.target := by
  cases hready : (dataPhase en r v).PREVDATASLAVEREADY with
  | true =>
    apply target_of_select
    · simp only [masterNext, hready, if_true, saddrsel_eq]
    · simp only [masterNext, hready, if_true, reservedAddrSel_eq]
  | false =>
    apply target_of_select
    · simp only [masterNext, hready, Bool.false_eq_true, if_false, h.dataSel]
    · simp only [masterNext, hready, Bool.false_eq_true, if_false, h.reserved]

/-- The registers of a stage agree with each other after every edge. -/
theorem wellFormed_masterNext : (masterNext g en REMAP r p v).WellFormed en := by
  have htarget : (masterNext g en REMAP r p v).target = _ := h.target_masterNext
  refine ⟨?_, ?_, ?_, ?_⟩
  · unfold masterNext addrRegNext
    cases r.addrRegSM <;> (simp only; split <;> rfl)
  · rw [htarget]
    simp only [masterNext]
    split
    · exact saddrsel_eq g REMAP r p
    · exact h.dataSel
  · rw [htarget]
    simp only [masterNext]
    split
    · exact reservedAddrSel_eq g REMAP r p
    · exact h.reserved
  · intro hext
    simp only [masterNext, h.defSlaveDataSel_eq] at hext
    -- the response begins in a cycle that is not ready, so the data phase stays
    have hnow : r.defSlaveSM = .idle ∧ r.target.isDefault en = true := by
      cases hs : r.defSlaveSM <;> cases ht : r.target.isDefault en <;>
        simp_all [defaultSlaveSM]
    rw [htarget, h.dataPhase_of_isDefault hnow.2]
    simp [hnow.1, hnow.2]

/-- A cycle that ends a data phase leaves the default slave idle. -/
theorem defSlave_next_of_ready (hready : (dataPhase en r v).HREADY_M = true) :
    (masterNext g en REMAP r p v).defSlaveSM = .idle := by
  simp only [masterNext, h.defSlaveDataSel_eq]
  cases ht : r.target.isDefault en with
  | true =>
    rw [h.dataPhase_of_isDefault ht, decide_eq_true_eq] at hready
    rw [hready]
    rfl
  | false =>
    have hs : r.defSlaveSM = .idle := by
      cases hs : r.defSlaveSM with
      | idle => rfl
      | hrespExtend =>
        rw [h.defSlave hs] at ht
        cases ht
    rw [hs]
    rfl

/-- The default slave asks for a second cycle. -/
theorem defSlave_next_of_asked (hs : r.defSlaveSM = .idle) (ht : r.target.isDefault en = true) :
    (masterNext g en REMAP r p v).defSlaveSM = .hrespExtend := by
  simp only [masterNext, h.defSlaveDataSel_eq, hs, ht]
  rfl

end MasterReg.WellFormed

/-- **When a stage holds an address phase back**: a master that is told to go on while its slave is not
ready for the address, until the slave is. -/
theorem addrRegSM_masterNext (g : Generics) (en : SlotId → Bool) (REMAP : Bool) (r : MasterReg)
    (p : AddrPhase) (v : SlaveView) :
    (masterNext g en REMAP r p v).addrRegSM = .registered ↔
      (r.addrRegSM = .idle ∧ p.HTRANS = true ∧ (dataPhase en r v).HREADY_M = true ∧
          ∃ s, decodedSlot g (pregated r p).HADDR REMAP = some s ∧ v.SADDRREADY s = false) ∨
        (r.addrRegSM = .registered ∧
          ∀ s, decodedSlot g (pregated r p).HADDR REMAP = some s → v.SADDRREADY s = false) := by
  have hdec : ∀ s, (addressDecode g REMAP r p).ADDRDEC s = true ↔
      decodedSlot g (pregated r p).HADDR REMAP = some s := by
    intro s
    rw [addressDecode, (addressDecoder_eq g _ REMAP).1, selectSlot_eq_true_iff]
  unfold masterNext addrRegNext
  cases hs : r.addrRegSM with
  | idle =>
    simp only [Bool.and_eq_true, decide_eq_true_eq, Bool.not_eq_true', hdec]
    split <;> simp_all
  | registered =>
    simp only [Bool.and_eq_true, decide_eq_true_eq, hdec]
    split <;> simp_all

section Copy

variable {g : Generics} {en : SlotId → Bool} {REMAP : Bool} {r : MasterReg} {p : AddrPhase}
  {v : SlaveView}

/-- The edge into `REGISTERED` is the one that takes the copy. -/
theorem regAddr_masterNext_of_idle (hs : r.addrRegSM = .idle)
    (hs' : (masterNext g en REMAP r p v).addrRegSM = .registered) :
    (masterNext g en REMAP r p v).regAddr = p := by
  simp only [masterNext] at hs' ⊢
  rw [if_pos]
  unfold addrRegNext at hs' ⊢
  rw [hs] at hs' ⊢
  simp only at hs' ⊢
  split at hs'
  · rw [if_pos (by assumption)]
  · cases hs'

/-- In `REGISTERED` the copy stays. -/
theorem regAddr_masterNext_of_registered (hs : r.addrRegSM = .registered) :
    (masterNext g en REMAP r p v).regAddr = r.regAddr := by
  simp only [masterNext, addrRegNext, hs]
  split <;> rfl

/-- **A stage that keeps an address is deaf**: it does not look at what its master presents. -/
theorem masterNext_of_registered (h : r.WellFormed en) (hs : r.addrRegSM = .registered)
    (p' : AddrPhase) : masterNext g en REMAP r p v = masterNext g en REMAP r p' v := by
  have hpre : pregated r p = pregated r p' := by
    rw [h.pregated_of_registered hs, h.pregated_of_registered hs]
  have hsel : saddrsel g REMAP r p = saddrsel g REMAP r p' := by
    rw [saddrsel, saddrsel, addressDecode, addressDecode, hpre]
  have hres : reservedAddrSel g REMAP r p = reservedAddrSel g REMAP r p' := by
    rw [reservedAddrSel, reservedAddrSel, addressDecode, addressDecode, hpre]
  have hnext : addrRegNext g en REMAP r p v = addrRegNext g en REMAP r p' v := by
    rw [addrRegNext, addrRegNext, addressDecode, addressDecode, hpre, hs]
  -- the clock of the copy is off
  have hclock : (addrRegNext g en REMAP r p' v).1 = false := by
    simp only [addrRegNext, hs]
    split <;> rfl
  simp only [masterNext, hsel, hres, hnext, hclock, Bool.false_eq_true, if_false]

end Copy

end SidBridge.CoreAhbLite
