import Mathlib.Tactic.Common
import SidBridge.Sync.Run

/-!
# The SID bridge: registers, next-state process and pins

The whole of `SID_BRIDGE` is one record of registers (`reg_type`), one combinational process that
computes the next record, and one clocked process that stores it.  This file is the translation:

* `StateType`, `RegType`, `resetReg` — the state enumeration, the register record and its reset value;
* `Ports` — what the next-state process reads in one cycle;
* `clockDivider`, `busFsm`, `nextReg` — the process, in the order of its statements;
* `Bibuf`, `SamplesPins`, `sidDataPins` — the generated row of eight vendor pad cells;
* `run` — the registers in every cycle after a reset.

`std_logic` is two-valued here: a signal is `Bool` (`'1'` is `true`), a vector is a `BitVec`.  The one
place where the source writes the don't-care literal is the reset value of `REG_ADDR`; it matches no
choice of a `case`, and is `none`.
-/

namespace SidBridge

/-- `state_type`. -/
inductive StateType where
  | stIdle
  | stError
  | stReadSidSt1
  | stReadSidSt2
  | stReadSidSt3
  | stReadSidSt4
  | stReadSidSt5
  | stReadSidSt6
  | stWriteSidSt1
  | stWriteSidSt2
  | stWriteSidSt3
  | stWriteSidSt4
  | stWriteSidSt5
  | stWriteSidSt6
  | stReadReg
  | stWriteReg
  deriving DecidableEq, Repr

/-- `reg_type`.  `sid_clk_cntr` is the source's bounded integer, without its bound. -/
@[ext] structure RegType where
  state : StateType
  regAddr : Option (BitVec 2)
  sidFreq : BitVec 8
  sidClkCntr : ℕ
  HRDATA : BitVec 32
  HREADYOUT : Bool
  HRESP : BitVec 2
  sidAddr : BitVec 5
  sidDataO : BitVec 8
  sidDataOe : Bool
  sidCsN : Bool
  sidRw : Bool
  sidRstN : Bool
  sidClk : Bool
  deriving DecidableEq, Repr

/-- `reset_reg`. -/
def resetReg : RegType where
  state := .stIdle
  regAddr := none
  sidFreq := 0b00100011#8
  sidClkCntr := 0
  HRDATA := 0
  HREADYOUT := true
  HRESP := 0
  sidAddr := 0
  sidDataO := 0
  sidDataOe := false
  sidCsN := true
  sidRw := false
  sidRstN := false
  sidClk := false

/-- The inputs of the next-state process in one cycle that some branch of it reads, with `HREADYIN`
and `HTRANS`, which it lists but reads nowhere.  `sidDataI` is what the pad cells hand in. -/
structure Ports where
  HRESETN : Bool
  HADDR : BitVec 32
  HREADYIN : Bool
  HSEL : Bool
  HTRANS : BitVec 2
  HWDATA : BitVec 32
  HWRITE : Bool
  sidDataI : BitVec 8
  deriving DecidableEq, Repr

namespace Ports

/-- `HADDR(14)`: set for the SID, clear for the register file. -/
def haddr14 (i : Ports) : Bool := i.HADDR.getLsbD 14

/-- `HADDR(3 downto 2)`. -/
def haddr32 (i : Ports) : BitVec 2 := i.HADDR.extractLsb' 2 2

/-- `HADDR(6 downto 2)`. -/
def haddr62 (i : Ports) : BitVec 5 := i.HADDR.extractLsb' 2 5

/-- `HWDATA(7 downto 0)`. -/
def hwdata70 (i : Ports) : BitVec 8 := i.HWDATA.extractLsb' 0 8

/-- `HTRANS(1)`: set for a transfer, clear for IDLE and BUSY. -/
def htrans1 (i : Ports) : Bool := i.HTRANS.getLsbD 1

end Ports

/-! ### The next-state process -/

/-- The divider statement, which comes before the `case` and reads nothing but its own registers. -/
def clockDivider (reg : RegType) : RegType :=
  if reg.sidClkCntr < reg.sidFreq.toNat then
    { reg with sidClkCntr := reg.sidClkCntr + 1 }
  else
    { reg with sidClk := !reg.sidClk, sidClkCntr := 0 }

/-- The value a register read loads into `HRDATA`: the `case` on the address just latched. -/
def registerValue (reg : RegType) (addr : BitVec 2) : BitVec 32 :=
  match addr with
  | 0b00#2 => (BitVec.ofBool reg.sidRstN).setWidth 32
  | 0b01#2 => reg.sidFreq.setWidth 32
  | _ => 0

/-- The `case reg.REG_ADDR` statement of `st_write_reg`. -/
def writeRegister (reg : RegType) (i : Ports) (v : RegType) : RegType :=
  match reg.regAddr with
  | some 0b00#2 => { v with sidRstN := i.HWDATA.getLsbD 0 }
  | some 0b01#2 => { v with sidFreq := i.hwdata70 }
  | _ => v

/-- The `case reg.state` statement, on the registers `reg` and the variable `v` so far. -/
def busFsm (reg : RegType) (i : Ports) (v : RegType) : RegType :=
  match reg.state with
  | .stIdle =>
      let v := { v with sidDataOe := false }
      if i.HSEL then
        let v := { v with HREADYOUT := true }
        if i.haddr14 = false then
          let v := { v with regAddr := some i.haddr32 }
          if i.HWRITE then
            { v with state := .stWriteReg }
          else
            { v with HRDATA := registerValue reg i.haddr32 }
        else
          let v := { v with HREADYOUT := false, sidAddr := i.haddr62 }
          if i.HWRITE then
            { v with state := .stWriteSidSt1 }
          else
            { v with state := .stReadSidSt1 }
      else v
  | .stWriteReg =>
      let v := writeRegister reg i v
      { v with state := .stIdle }
  | .stReadSidSt1 =>
      let v := { v with sidDataOe := false }
      if reg.sidClk = false then
        { v with sidCsN := false, sidRw := true, state := .stReadSidSt2 }
      else v
  | .stReadSidSt2 =>
      if reg.sidClk then { v with state := .stReadSidSt3 } else v
  | .stReadSidSt3 =>
      if reg.sidClk = false then
        { v with HRDATA := i.sidDataI.setWidth 32, state := .stReadSidSt4 }
      else v
  | .stReadSidSt4 => { v with state := .stReadSidSt5 }
  | .stReadSidSt5 => { v with state := .stReadSidSt6 }
  | .stReadSidSt6 =>
      { v with HREADYOUT := true, sidCsN := true, sidRw := true, state := .stIdle }
  | .stWriteSidSt1 =>
      let v := { v with sidDataO := i.hwdata70, sidDataOe := false }
      if reg.sidClk = false then
        { v with sidCsN := false, sidRw := false, state := .stWriteSidSt2 }
      else v
  | .stWriteSidSt2 =>
      if reg.sidClk then { v with sidDataOe := true, state := .stWriteSidSt3 } else v
  | .stWriteSidSt3 =>
      if reg.sidClk = false then { v with state := .stWriteSidSt4 } else v
  | .stWriteSidSt4 => { v with state := .stWriteSidSt5 }
  | .stWriteSidSt5 => { v with state := .stWriteSidSt6 }
  | .stWriteSidSt6 =>
      { v with sidDataOe := false, HREADYOUT := true, sidCsN := true, sidRw := true,
               state := .stIdle }
  | .stError => { v with state := .stIdle }
  -- `when others`: only `st_read_reg` is left
  | .stReadReg => { v with state := .stIdle }

/-- The process: divider, state machine, and the synchronous reset that overrides both. -/
def nextReg (reg : RegType) (i : Ports) : RegType :=
  let v := busFsm reg i (clockDivider reg)
  if i.HRESETN = false then resetReg else v

/-- The registers in cycle `n` of a run that starts with the record just reset. -/
def run (inp : ℕ → Ports) (n : ℕ) : RegType := Sync.run nextReg resetReg inp n

theorem run_succ (inp : ℕ → Ports) (n : ℕ) : run inp (n + 1) = nextReg (run inp n) (inp n) := rfl

theorem run_isRun (inp : ℕ → Ports) : Sync.IsRun nextReg (run inp) inp := fun _ => rfl

/-- The registers some run from a reset can hold. -/
def Reachable (reg : RegType) : Prop := ∃ inp n, reg = run inp n

/-- The wiring: the bridge's own `HREADYOUT` comes back as `HREADYIN`. -/
def loopback (inp : ℕ → Ports) (n : ℕ) : Ports := { inp n with HREADYIN := (run inp n).HREADYOUT }

/-- The bridge does not look at `HREADYIN`, so the wiring does not change what it does. -/
theorem run_loopback (inp : ℕ → Ports) (n : ℕ) : run (loopback inp) n = run inp n := by
  induction n with
  | zero => rfl
  | succ n ih =>
    rw [run_succ, run_succ, ih]
    rfl

/-- A cycle in which the bus asks for nothing. -/
def Ports.quiet : Ports where
  HRESETN := true
  HADDR := 0
  HREADYIN := true
  HSEL := false
  HTRANS := 0b00#2
  HWDATA := 0
  HWRITE := false
  sidDataI := 0

/-- The address phase of a transfer. -/
def Ports.transfer (haddr : BitVec 32) (hwrite : Bool) : Ports :=
  { Ports.quiet with HADDR := haddr, HSEL := true, HTRANS := 0b10#2, HWRITE := hwrite }

/-- A run with a single SID write, whose address phase is in cycle `a`. -/
def sidWriteAt (a n : ℕ) : Ports := if n = a then Ports.transfer 0x4000 true else Ports.quiet

theorem sidWriteAt_no_reset (a n : ℕ) : (sidWriteAt a n).HRESETN = true := by
  unfold sidWriteAt
  split <;> rfl

/-- Software first sets the divider value; the cycles from the third on are those of `rest`. -/
def setFreq (freq : BitVec 32) (rest : ℕ → Ports) : ℕ → Ports
  | 0 => Ports.transfer 0x4 true
  | 1 => { Ports.quiet with HWDATA := freq }
  | n + 2 => rest n

theorem setFreq_no_reset (freq : BitVec 32) {rest : ℕ → Ports} (h : ∀ n, (rest n).HRESETN = true) :
    ∀ n, (setFreq freq rest n).HRESETN = true
  | 0 => rfl
  | 1 => rfl
  | n + 2 => h n

/-! ### The pads -/

/-- The vendor cell `BIBUF`: what its `Y` shows for a pad value, and what `D` and `E` make it put on
the pad (`none` is high impedance).  Its two properties are all the design relies on. -/
structure Bibuf where
  y : Bool → Bool
  drive : Bool → Bool → Option Bool
  y_follows_pad : ∀ pad, y pad = pad
  drive_enabled : ∀ d, drive d true = some d
  drive_disabled : ∀ d, drive d false = none

/-- A cell with these properties. -/
def bibuf : Bibuf where
  y pad := pad
  drive d e := if e then some d else none
  y_follows_pad _ := rfl
  drive_enabled _ := rfl
  drive_disabled _ := rfl

/-- The generated row on its input side: bit `k` of `sid_data_i` is the `Y` of the cell on pin `k`. -/
def SamplesPins (cell : Bibuf) (pins : BitVec 8) (i : Ports) : Prop :=
  ∀ k : Fin 8, i.sidDataI.getLsbD k = cell.y (pins.getLsbD k)

/-- The generated row on its output side: what the cell on pin `k` puts on `sid_data(k)`. -/
def sidDataPins (cell : Bibuf) (reg : RegType) (k : Fin 8) : Option Bool :=
  cell.drive (reg.sidDataO.getLsbD k) reg.sidDataOe

/-- A byte on all eight pins. -/
def pinsOfByte (byte : BitVec 8) (k : Fin 8) : Option Bool := some (byte.getLsbD k)

theorem samplesPins_iff (cell : Bibuf) (pins : BitVec 8) (i : Ports) :
    SamplesPins cell pins i ↔ i.sidDataI = pins := by
  constructor
  · intro h
    apply BitVec.eq_of_getLsbD_eq
    intro k hk
    rw [h ⟨k, hk⟩, cell.y_follows_pad]
  · intro h k
    rw [h, cell.y_follows_pad]

theorem sidDataPins_enabled (cell : Bibuf) {reg : RegType} (h : reg.sidDataOe = true) :
    sidDataPins cell reg = pinsOfByte reg.sidDataO := by
  funext k
  rw [sidDataPins, h, cell.drive_enabled, pinsOfByte]

theorem sidDataPins_disabled (cell : Bibuf) {reg : RegType} (h : reg.sidDataOe = false) :
    sidDataPins cell reg = fun _ => none := by
  funext k
  rw [sidDataPins, h, cell.drive_disabled]

end SidBridge
