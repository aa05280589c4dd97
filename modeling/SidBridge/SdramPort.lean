import Mathlib.Tactic.Common
import SidBridge.Sync.Run
import SidBridge.CoreAhbLite.Matrix

/-!
# The bus side of the SDRAM controller

`CORESDR_AHB_BURST_16DQ` answers on the bus through three registers and a multiplexer.  What lies behind
them, the command machine, the two FIFOs and the SDRAM, shows in two signals only, `HREADY_AHB` and
`hdataout_reg`, and these are inputs here.

* `SdrReg`, `SdrIn`, `HSEL_S`, `acen`, `sdrHRDATA`, `sdrPort`, `sdrNext` — registers, ports and processes;
* `sdrHRDATA_byte` — a byte is read in every lane;
* `busy_owed` — **the controller takes time only for a transfer it was given**;
* `sdrReg_of_taken` — and keeps the address and the size of that transfer while it lasts.
-/

namespace SidBridge

open CoreAhbLite

/-- The registers of the port. -/
structure SdrReg where
  HSELREG : Bool
  haddr_reg : BitVec 32
  hsize_reg : BitVec 3
  deriving DecidableEq, Repr

/-- The registers after a reset. -/
def sdrReset : SdrReg where
  HSELREG := false
  haddr_reg := 0
  hsize_reg := 0

/-- What the rest of the controller drives. -/
structure SdrIn where
  HREADY_AHB : Bool
  hdataout_reg : BitVec 32
  deriving DecidableEq, Repr

/-- The multiplexer on `hsize_reg` and `haddr_reg[0]`. -/
def sdrHRDATA (reg : SdrReg) (hdataout_reg : BitVec 32) : BitVec 32 :=
  let low := hdataout_reg.extractLsb' 0 8
  let high := hdataout_reg.extractLsb' 8 8
  let half := hdataout_reg.extractLsb' 0 16
  if reg.hsize_reg = 0b000#3 then
    if reg.haddr_reg.getLsbD 0 then high ++ high ++ high ++ high else low ++ low ++ low ++ low
  else if reg.hsize_reg = 0b001#3 then half ++ half
  else hdataout_reg

/-- `HREADY`, `HRESP` and `HRDATA`. -/
def sdrPort (reg : SdrReg) (i : SdrIn) : SlavePort where
  HREADYOUT := if reg.HSELREG then i.HREADY_AHB else true
  HRESP := false
  HRDATA := if reg.HSELREG then sdrHRDATA reg i.hdataout_reg else 0

/-- `HSEL_S`.  Bit 0 of `HTRANS` is `'0'` on this bus. -/
def HSEL_S (bus : SlaveStageOut) : Bool := bus.HSEL && bus.phase.HTRANS

/-- `acen`: the controller takes a transfer at this edge. -/
def acen (bus : SlaveStageOut) : Bool := HSEL_S bus && bus.HREADY_S

/-- The registers after a clock edge. -/
def sdrNext (reg : SdrReg) (bus : SlaveStageOut) : SdrReg where
  HSELREG := if bus.HREADY_S then HSEL_S bus else reg.HSELREG
  haddr_reg := if acen bus then bus.phase.HADDR else reg.haddr_reg
  hsize_reg := if acen bus then bus.phase.HSIZE else reg.hsize_reg

/-- Four copies of a byte show it in every lane. -/
theorem extractLsb'_copies (byte : BitVec 8) {lane : ℕ} (hlane : lane < 4) :
    (byte ++ byte ++ byte ++ byte).extractLsb' (8 * lane) 8 = byte := by
  ext k hk
  rw [BitVec.getElem_extractLsb', BitVec.getLsbD_append, BitVec.getLsbD_append, BitVec.getLsbD_append]
  obtain rfl | rfl | rfl | rfl : lane = 0 ∨ lane = 1 ∨ lane = 2 ∨ lane = 3 := by omega
  · simp [hk]
  · simp [hk]
  · simp [hk, show ¬16 + k < 8 by omega, show ¬16 + k - 8 < 8 by omega, show 16 + k - 8 - 8 = k by omega]
  · simp [hk, show ¬24 + k < 8 by omega, show ¬24 + k - 8 < 8 by omega, show ¬24 + k - 8 - 8 < 8 by omega,
      show 24 + k - 8 - 8 - 8 = k by omega]

/-- **A byte is read in every lane**: the one its address names among the two bytes of the pins. -/
theorem sdrHRDATA_byte {reg : SdrReg} (hsize : reg.hsize_reg = 0b000#3) (hdataout_reg : BitVec 32)
    {lane : ℕ} (hlane : lane < 4) :
    (sdrHRDATA reg hdataout_reg).extractLsb' (8 * lane) 8 =
      hdataout_reg.extractLsb' (if reg.haddr_reg.getLsbD 0 then 8 else 0) 8 := by
  simp only [sdrHRDATA, hsize, if_true]
  split
  · exact extractLsb'_copies _ hlane
  · exact extractLsb'_copies _ hlane

section Runs

variable {reg : ℕ → SdrReg} {bus : ℕ → SlaveStageOut} {i : ℕ → SdrIn} (h : Sync.IsRun sdrNext reg bus)

/-- The controller is busy only with a transfer. -/
theorem hselreg_of_busy {r : SdrReg} {j : SdrIn} (hbusy : (sdrPort r j).HREADYOUT = false) :
    r.HSELREG = true := by
  by_contra hsel
  simp [sdrPort, hsel] at hbusy

include h

/-- **The controller takes time only for a transfer it was given**, on a bus that tells it of its own
`HREADY`. -/
theorem busy_owed {n : ℕ} (hown : (bus n).HREADY_S = (sdrPort (reg n) (i n)).HREADYOUT)
    (hbusy : (sdrPort (reg (n + 1)) (i (n + 1))).HREADYOUT = false) :
    (sdrPort (reg n) (i n)).HREADYOUT = false ∨ acen (bus n) = true := by
  have hsel := hselreg_of_busy hbusy
  rw [h n] at hsel
  cases hready : (bus n).HREADY_S with
  | false => exact Or.inl (hown.symm.trans hready)
  | true =>
    right
    simpa [sdrNext, acen, hready] using hsel

/-- **The address and the size** of a transfer stay while it lasts. -/
theorem sdrReg_of_taken {a b : ℕ} (hab : a < b) (htaken : acen (bus a) = true)
    (hwait : ∀ k, a < k → k < b → (bus k).HREADY_S = false) :
    reg b = { HSELREG := true, haddr_reg := (bus a).phase.HADDR, hsize_reg := (bus a).phase.HSIZE } := by
  induction b, hab using Nat.le_induction with
  | base =>
    obtain ⟨hsel, hready⟩ := Bool.and_eq_true_iff.mp htaken
    rw [h a, sdrNext, htaken, hready, hsel]
    simp
  | succ b hab ih =>
    have hbusy := hwait b hab (Nat.lt_succ_self b)
    rw [h b, ih fun k hak hkb => hwait k hak (Nat.lt_succ_of_lt hkb)]
    simp [sdrNext, acen, hbusy]

end Runs

end SidBridge
