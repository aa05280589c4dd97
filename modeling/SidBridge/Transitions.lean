import SidBridge.Bridge

/-!
# What one clock edge does to each register

The next-state process is one long `case`; the rest of the development never opens it again.  Here it is
read once, register by register:

* the requests of a cycle: `sidRequest`, `registerWrite`, `registerRead`, `readCapture`;
* `state_nextReg` — the successor of every state;
* one lemma for each register that says exactly when an edge changes it, and to what.

Every lemma is about an edge without reset; `nextReg_reset` is the other case.
-/

namespace SidBridge

namespace StateType

/-- The six states of a SID read. -/
def isSidRead : StateType → Bool
  | stReadSidSt1 | stReadSidSt2 | stReadSidSt3 | stReadSidSt4 | stReadSidSt5 | stReadSidSt6 => true
  | _ => false

/-- The six states of a SID write. -/
def isSidWrite : StateType → Bool
  | stWriteSidSt1 | stWriteSidSt2 | stWriteSidSt3 | stWriteSidSt4 | stWriteSidSt5
  | stWriteSidSt6 => true
  | _ => false

/-- A SID access is in progress. -/
def isSidAccess (s : StateType) : Bool := s.isSidRead || s.isSidWrite

end StateType

/-! ### What a cycle asks for -/

/-- An address phase of the SID is taken: `st_idle`, selected, `HADDR(14)` set. -/
def sidRequest (reg : RegType) (i : Ports) : Bool :=
  reg.state = .stIdle && i.HSEL && i.haddr14

/-- An address phase of a register write is taken. -/
def registerWrite (reg : RegType) (i : Ports) : Bool :=
  reg.state = .stIdle && i.HSEL && !i.haddr14 && i.HWRITE

/-- An address phase of a register read is taken; the same edge loads `HRDATA`. -/
def registerRead (reg : RegType) (i : Ports) : Bool :=
  reg.state = .stIdle && i.HSEL && !i.haddr14 && !i.HWRITE

/-- The edge at which a SID read takes the byte off the pins. -/
def readCapture (reg : RegType) : Bool := reg.state = .stReadSidSt3 && !reg.sidClk

/-- The edge at which an access pulls `sid_cs_n` low. -/
def selectEdge (reg : RegType) : Bool :=
  (reg.state = .stReadSidSt1 || reg.state = .stWriteSidSt1) && !reg.sidClk

/-- The edge at which an access lets `sid_cs_n` go. -/
def releaseEdge (reg : RegType) : Bool :=
  reg.state = .stReadSidSt6 || reg.state = .stWriteSidSt6

/-- The edge at which a SID write starts to drive `sid_data`. -/
def driveEdge (reg : RegType) : Bool := reg.state = .stWriteSidSt2 && reg.sidClk

/-- The edge at which a register write takes its data. -/
def registerUpdate (reg : RegType) (addr : BitVec 2) : Bool :=
  reg.state = .stWriteReg && reg.regAddr = some addr

/-- The state after an edge. -/
def nextState (reg : RegType) (i : Ports) : StateType :=
  match reg.state with
  | .stIdle =>
      if registerWrite reg i then .stWriteReg
      else if sidRequest reg i then (if i.HWRITE then .stWriteSidSt1 else .stReadSidSt1)
      else .stIdle
  | .stReadSidSt1 => if reg.sidClk then .stReadSidSt1 else .stReadSidSt2
  | .stReadSidSt2 => if reg.sidClk then .stReadSidSt3 else .stReadSidSt2
  | .stReadSidSt3 => if reg.sidClk then .stReadSidSt3 else .stReadSidSt4
  | .stReadSidSt4 => .stReadSidSt5
  | .stReadSidSt5 => .stReadSidSt6
  | .stWriteSidSt1 => if reg.sidClk then .stWriteSidSt1 else .stWriteSidSt2
  | .stWriteSidSt2 => if reg.sidClk then .stWriteSidSt3 else .stWriteSidSt2
  | .stWriteSidSt3 => if reg.sidClk then .stWriteSidSt3 else .stWriteSidSt4
  | .stWriteSidSt4 => .stWriteSidSt5
  | .stWriteSidSt5 => .stWriteSidSt6
  | .stReadSidSt6 | .stWriteSidSt6 | .stError | .stReadReg | .stWriteReg => .stIdle

/-! ### The registers after an edge -/

theorem clockDivider_eq (reg : RegType) : clockDivider reg =
    { reg with
      sidClk := if reg.sidClkCntr < reg.sidFreq.toNat then reg.sidClk else !reg.sidClk
      sidClkCntr := if reg.sidClkCntr < reg.sidFreq.toNat then reg.sidClkCntr + 1 else 0 } := by
  unfold clockDivider
  split <;> rfl

theorem writeRegister_eq (reg : RegType) (i : Ports) (v : RegType) : writeRegister reg i v =
    { v with
      sidRstN := if reg.regAddr = some 0b00#2 then i.HWDATA.getLsbD 0 else v.sidRstN
      sidFreq := if reg.regAddr = some 0b01#2 then i.hwdata70 else v.sidFreq } := by
  unfold writeRegister
  split <;> simp_all

theorem nextReg_reset {i : Ports} (reg : RegType) (h : i.HRESETN = false) :
    nextReg reg i = resetReg := by
  simp [nextReg, h]

/-- **What an edge without reset does**, all registers at once. -/
theorem nextReg_eq {i : Ports} (reg : RegType) (h : i.HRESETN = true) : nextReg reg i =
    { state := nextState reg i
      regAddr := if registerWrite reg i || registerRead reg i then some i.haddr32 else reg.regAddr
      sidFreq := if registerUpdate reg 0b01#2 then i.hwdata70 else reg.sidFreq
      sidClkCntr := if reg.sidClkCntr < reg.sidFreq.toNat then reg.sidClkCntr + 1 else 0
      HRDATA :=
        if registerRead reg i then registerValue reg i.haddr32
        else if readCapture reg then i.sidDataI.setWidth 32
        else reg.HRDATA
      HREADYOUT :=
        if sidRequest reg i then false
        else if registerWrite reg i || registerRead reg i || releaseEdge reg then true
        else reg.HREADYOUT
      HRESP := reg.HRESP
      sidAddr := if sidRequest reg i then i.haddr62 else reg.sidAddr
      sidDataO := if reg.state = .stWriteSidSt1 then i.hwdata70 else reg.sidDataO
      sidDataOe :=
        if driveEdge reg then true
        else if reg.state = .stIdle ∨ reg.state = .stReadSidSt1 ∨ reg.state = .stWriteSidSt1 ∨
          reg.state = .stWriteSidSt6 then false
        else reg.sidDataOe
      sidCsN := if selectEdge reg then false else if releaseEdge reg then true else reg.sidCsN
      sidRw :=
        if selectEdge reg then reg.state.isSidRead
        else if releaseEdge reg then true
        else reg.sidRw
      sidRstN := if registerUpdate reg 0b00#2 then i.HWDATA.getLsbD 0 else reg.sidRstN
      sidClk := if reg.sidClkCntr < reg.sidFreq.toNat then reg.sidClk else !reg.sidClk } := by
  rw [nextReg, clockDivider_eq, if_neg (by simp [h])]
  cases hs : reg.state <;>
    simp only [busFsm, nextState, hs, writeRegister_eq, registerWrite, registerRead, sidRequest,
      readCapture, registerUpdate, selectEdge, releaseEdge, driveEdge]
  case stIdle =>
    cases h1 : i.HSEL <;> cases h2 : i.haddr14 <;> cases h3 : i.HWRITE <;>
      simp
  case stWriteReg => simp
  all_goals cases reg.sidClk <;> simp [StateType.isSidRead]

/-! ### Single registers -/

theorem state_nextReg {reg : RegType} {i : Ports} (h : i.HRESETN = true) :
    (nextReg reg i).state = nextState reg i := by
  rw [nextReg_eq reg h]

/-- Outside `st_idle` an edge leaves `sid_addr`. -/
theorem sidAddr_nextReg_of_ne {reg : RegType} {i : Ports} (h : i.HRESETN = true)
    (hs : reg.state ≠ .stIdle) : (nextReg reg i).sidAddr = reg.sidAddr := by
  rw [nextReg_eq reg h]
  simp [sidRequest, hs]

/-- Outside `st_write_sid_st1` an edge leaves `sid_data_o`. -/
theorem sidDataO_nextReg_of_ne {reg : RegType} {i : Ports} (h : i.HRESETN = true)
    (hs : reg.state ≠ .stWriteSidSt1) : (nextReg reg i).sidDataO = reg.sidDataO := by
  rw [nextReg_eq reg h]
  exact if_neg hs

/-- Below the limit an edge leaves the level. -/
theorem sidClk_nextReg_of_lt {reg : RegType} {i : Ports} (h : i.HRESETN = true)
    (hlt : reg.sidClkCntr < reg.sidFreq.toNat) : (nextReg reg i).sidClk = reg.sidClk := by
  rw [nextReg_eq reg h]
  simp [hlt]

/-! ### What the requests say about the state -/

theorem sidRequest_iff {reg : RegType} {i : Ports} : sidRequest reg i = true ↔
    reg.state = .stIdle ∧ i.HSEL = true ∧ i.haddr14 = true := by
  simp [sidRequest, and_assoc]

theorem registerWrite_iff {reg : RegType} {i : Ports} : registerWrite reg i = true ↔
    reg.state = .stIdle ∧ i.HSEL = true ∧ i.haddr14 = false ∧ i.HWRITE = true := by
  simp [registerWrite, and_assoc]

theorem registerRead_iff {reg : RegType} {i : Ports} : registerRead reg i = true ↔
    reg.state = .stIdle ∧ i.HSEL = true ∧ i.haddr14 = false ∧ i.HWRITE = false := by
  simp [registerRead, and_assoc]

theorem registerUpdate_eq_true_iff {reg : RegType} {addr : BitVec 2} :
    registerUpdate reg addr = true ↔ reg.state = .stWriteReg ∧ reg.regAddr = some addr := by
  simp [registerUpdate]

theorem readCapture_eq_true_iff {reg : RegType} :
    readCapture reg = true ↔ reg.state = .stReadSidSt3 ∧ reg.sidClk = false := by
  simp [readCapture]

theorem sidRequest_of_registerWrite {reg : RegType} {i : Ports} (h : registerWrite reg i = true) :
    sidRequest reg i = false := by
  obtain ⟨hs, hsel, haddr, _⟩ := registerWrite_iff.mp h
  simp [sidRequest, haddr]

theorem sidRequest_of_registerRead {reg : RegType} {i : Ports} (h : registerRead reg i = true) :
    sidRequest reg i = false := by
  obtain ⟨hs, hsel, haddr, _⟩ := registerRead_iff.mp h
  simp [sidRequest, haddr]

/-- `st_write_reg` is entered by a register write, and lasts one cycle. -/
theorem nextState_eq_stWriteReg_iff {reg : RegType} {i : Ports} :
    nextState reg i = .stWriteReg ↔ registerWrite reg i = true := by
  cases hs : reg.state <;> simp only [nextState, hs]
  case stIdle =>
    cases hw : registerWrite reg i <;> cases hr : sidRequest reg i <;> cases hd : i.HWRITE <;> simp
  all_goals cases reg.sidClk <;> simp [registerWrite, hs]

/-- The state after the address phase of a register write. -/
theorem state_nextReg_of_registerWrite {reg : RegType} {i : Ports} (h : i.HRESETN = true)
    (hw : registerWrite reg i = true) : (nextReg reg i).state = .stWriteReg := by
  rw [nextReg_eq reg h]
  exact nextState_eq_stWriteReg_iff.mpr hw

theorem state_nextReg_of_stWriteReg {reg : RegType} {i : Ports} (h : i.HRESETN = true)
    (hs : reg.state = .stWriteReg) : (nextReg reg i).state = .stIdle := by
  rw [nextReg_eq reg h]
  simp [nextState, hs]

end SidBridge
