import Mathlib.Tactic.Common
import SidBridge.CoreAhbLite.SlaveStage

/-!
# The matrix of CoreAHBLite

`COREAHBLITE_MATRIX4X16` wires four master stages to seventeen slave stages.  A pair of a master and a slot
is connected only when the generic of the master enables the slot; everything else is tied off.

* `MatrixGenerics`, `MatrixReg`, `MatrixIn` — generics, registers, and the ports of masters and slaves;
* `slaveStageIn`, `slaveView` — the wires into a slave stage and into a master stage;
* `masterOut`, `slaveOut`, `matrixNext` — what the ports show, and the edge;
* `addrTargetOf`, `grantOf`, `Takes`, `GoesOn` — whom a master addresses, whom a slave serves, when both agree,
  and when an address phase leaves its master;
* the lemmas after them — one for each wire a proof reads;
* `SameSeen`, `SameSeen.matrixNext` — a master whose stage keeps an address is not heard.
-/

namespace SidBridge.CoreAhbLite

/-- The generics: the memory map, and `Mx_AHBSLOTENABLE` for each master. -/
structure MatrixGenerics where
  map : Generics
  slotEnable : MasterId → SlotId → Bool

/-- All registers. -/
structure MatrixReg where
  master : MasterId → MasterReg
  slave : SlotId → SlaveReg

/-- What a master drives. -/
structure MasterPort where
  phase : AddrPhase
  HWDATA : BitVec 32
  deriving DecidableEq, Repr

/-- What a slave drives. -/
structure SlavePort where
  HREADYOUT : Bool
  HRESP : Bool
  HRDATA : BitVec 32
  deriving DecidableEq, Repr

/-- The inputs in one cycle. -/
structure MatrixIn where
  REMAP_M0 : Bool
  master : MasterId → MasterPort
  slave : SlotId → SlavePort

/-- The registers after a reset. -/
def matrixReset : MatrixReg where
  master _ := masterReset
  slave _ := slaveReset

section Wires

variable (c : MatrixGenerics) (x : MatrixReg) (i : MatrixIn)

/-- The `REMAP` input of a master stage: only master 0 has one. -/
def remapOf (m : MasterId) : Bool := if m.val = 0 then i.REMAP_M0 else false

/-- Some master is connected to the slot. -/
def slotConnected (s : SlotId) : Bool := decide (∃ m, c.slotEnable m s = true)

/-- `INT_HREADYOUT_Sx`. -/
def intHREADYOUT (s : SlotId) : Bool := if slotConnected c s then (i.slave s).HREADYOUT else true

/-- `INT_HRESP_Sx`. -/
def intHRESP (s : SlotId) : Bool := if slotConnected c s then (i.slave s).HRESP else false

/-- `Mx_HREADYOUT_Sx`. -/
def masterHREADYOUT (m : MasterId) (s : SlotId) : Bool :=
  if c.slotEnable m s then (i.slave s).HREADYOUT else true

/-- `mxPrevDataSlaveReady`.  This output of a master stage reads the lines `HREADYOUT` alone, so it is
there before the slave stages are. -/
def prevDataSlaveReady (m : MasterId) : Bool :=
  (dataPhase (c.slotEnable m) (x.master m)
    { SADDRREADY := fun _ => false
      SDATAREADY := fun _ => false
      SHRESP := fun _ => false
      HRDATA_S := fun _ => 0
      HREADYOUT_S := masterHREADYOUT c i m }).PREVDATASLAVEREADY

/-- The wires into a slave stage. -/
def slaveStageIn (s : SlotId) : SlaveStageIn where
  HREADYOUT := intHREADYOUT c i s
  HRESP := intHRESP c i s
  MADDRSEL m :=
    if c.slotEnable m s then
      saddrsel c.map (remapOf i m) (x.master m) (i.master m).phase s
    else false
  MDATASEL m := if c.slotEnable m s then (x.master m).SDATASEL s else false
  MPREVDATASLAVEREADY m := if c.slotEnable m s then prevDataSlaveReady c x i m else true
  MGATED m :=
    if c.slotEnable m s then
      gated c.map (remapOf i m) (x.master m) (i.master m).phase
    else .zero
  HWDATA_M m := if c.slotEnable m s then (i.master m).HWDATA else 0

/-- The outputs of a slave stage. -/
def slaveOut (s : SlotId) : SlaveStageOut := slaveStage (x.slave s) (slaveStageIn c x i s)

/-- The wires into a master stage. -/
def slaveView (m : MasterId) : SlaveView where
  SADDRREADY s := if c.slotEnable m s then (slaveOut c x i s).MADDRREADY m else true
  SDATAREADY s := if c.slotEnable m s then (slaveOut c x i s).MDATAREADY m else true
  SHRESP s := if c.slotEnable m s then (slaveOut c x i s).MHRESP m else false
  HRDATA_S s := if c.slotEnable m s then (i.slave s).HRDATA else 0
  HREADYOUT_S := masterHREADYOUT c i m

/-- What a master stage shows in the data phase: `HREADY_Mx`, `HRESP_Mx` and `HRDATA_Mx`. -/
def masterOut (m : MasterId) : DataOut := dataPhase (c.slotEnable m) (x.master m) (slaveView c x i m)

/-- The registers after a clock edge. -/
def matrixNext : MatrixReg where
  master m := masterNext c.map (c.slotEnable m) (remapOf i m) (x.master m) (i.master m).phase
    (slaveView c x i m)
  slave s := slaveNext (x.slave s) (slaveStageIn c x i s)

/-- What the address phase of a master is about. -/
def addrTargetOf (m : MasterId) : Target :=
  addrTarget c.map (remapOf i m) (x.master m) (i.master m).phase

/-- The address phase a master stage hands to the slave stages. -/
def gatedOf (m : MasterId) : AddrPhase :=
  gated c.map (remapOf i m) (x.master m) (i.master m).phase

/-- The master whose address phase is in progress at a slot. -/
def grantOf (s : SlotId) : Option MasterId := masterAddrInProg (x.slave s) (slaveStageIn c x i s)

/-- The slave is ready for the address phase of the master. -/
def Takes (m : MasterId) (s : SlotId) : Prop :=
  grantOf c x i s = some m ∧ (i.slave s).HREADYOUT = true

/-- The address phase of a master goes on to the slaves: one its stage keeps, or one of a cycle in which the
master is told to go on. -/
def GoesOn (m : MasterId) : Prop :=
  (x.master m).addrRegSM = .registered ∨
    ((x.master m).addrRegSM = .idle ∧ (masterOut c x i m).HREADY_M = true)

end Wires

/-! ### The wires -/

section WireLemmas

variable {c : MatrixGenerics} {x : MatrixReg} {i : MatrixIn} {m : MasterId} {s : SlotId}

theorem slotConnected_of_enabled (hen : c.slotEnable m s = true) : slotConnected c s = true :=
  decide_eq_true ⟨m, hen⟩

theorem intHREADYOUT_of_enabled (hen : c.slotEnable m s = true) :
    intHREADYOUT c i s = (i.slave s).HREADYOUT := by
  rw [intHREADYOUT, slotConnected_of_enabled hen, if_pos rfl]

/-- The two copies of this output are one signal. -/
theorem prevDataSlaveReady_eq (c : MatrixGenerics) (x : MatrixReg) (i : MatrixIn) (m : MasterId) :
    prevDataSlaveReady c x i m = (masterOut c x i m).PREVDATASLAVEREADY := by
  unfold prevDataSlaveReady masterOut dataPhase
  split
  · rfl
  · split
    · split <;> rfl
    · rfl

theorem maddrsel_eq_true_iff :
    (slaveStageIn c x i s).MADDRSEL m = true ↔
      c.slotEnable m s = true ∧ addrTargetOf c x i m = .slot s := by
  simp only [slaveStageIn, addrTargetOf]
  split
  · simp [saddrsel_eq_true_iff, *]
  · simp [*]

/-- **Whom a slave serves**: a master that is connected and addresses it, or one whose address phase is
being extended. -/
theorem grantOf_selects (h : grantOf c x i s = some m) :
    (c.slotEnable m s = true ∧ addrTargetOf c x i m = .slot s) ∨ (x.slave s).arb.Extends m := by
  rw [← maddrsel_eq_true_iff]
  exact grant_selects h

/-- The address of a connected slot waits until its slave takes it. -/
theorem saddrready_eq_false_iff (hen : c.slotEnable m s = true)
    (htarget : addrTargetOf c x i m = .slot s) :
    (slaveView c x i m).SADDRREADY s = false ↔ ¬Takes c x i m s := by
  have hsel : (slaveStageIn c x i s).MADDRSEL m = true := maddrsel_eq_true_iff.mpr ⟨hen, htarget⟩
  have hready : (slaveStageIn c x i s).HREADYOUT = (i.slave s).HREADYOUT :=
    intHREADYOUT_of_enabled hen
  simp only [slaveView, hen, if_true, slaveOut, maddrready_eq_false_iff hsel, Takes, grantOf, hready]

/-- The address of a slot that is not connected never waits. -/
theorem saddrready_of_not_enabled (hen : c.slotEnable m s = false) :
    (slaveView c x i m).SADDRREADY s = true := by
  simp [slaveView, hen]

/-- The data phase at a connected slot: the slave's if the slave stage agrees, else a wait. -/
theorem masterOut_of_slot (hwf : (x.master m).WellFormed (c.slotEnable m))
    (hen : c.slotEnable m s = true) (htarget : (x.master m).target = .slot s) :
    masterOut c x i m =
      { HREADY_M := decide ((x.slave s).masterDataInProg = some m) && (i.slave s).HREADYOUT
        HRESP := decide ((x.slave s).masterDataInProg = some m) && (i.slave s).HRESP
        HRDATA := (i.slave s).HRDATA
        PREVDATASLAVEREADY := (i.slave s).HREADYOUT } := by
  have hsel : (slaveStageIn c x i s).MDATASEL m = true := by
    simp only [slaveStageIn, hen, if_true, hwf.dataSel, htarget]
    exact selectSlot_some_self s
  have hready : (slaveStageIn c x i s).HREADYOUT = (i.slave s).HREADYOUT :=
    intHREADYOUT_of_enabled hen
  rw [masterOut, hwf.dataPhase_of_slot htarget hen]
  simp only [slaveView, hen, if_true, slaveOut, mdataready_eq hsel, hready, masterHREADYOUT]
  congr 1
  by_cases hdata : (x.slave s).masterDataInProg = some m <;>
    simp [slaveStage, slaveStageIn, intHRESP, slotConnected_of_enabled hen, hdata]

/-- If the slave stage works for the master in its data phase, ready for the master and ready for the slave
side are the same. -/
theorem hready_eq_of_owner (hwf : (x.master m).WellFormed (c.slotEnable m))
    (howner : ∀ s, (x.master m).target = .slot s → c.slotEnable m s = true →
      (x.slave s).masterDataInProg = some m) :
    (masterOut c x i m).HREADY_M = (masterOut c x i m).PREVDATASLAVEREADY := by
  by_cases hslot : ∃ s, (x.master m).target = .slot s ∧ c.slotEnable m s = true
  · obtain ⟨s, htarget, hen⟩ := hslot
    rw [masterOut_of_slot hwf hen htarget, howner s htarget hen]
    simp
  · refine hwf.hready_eq_of_not_slot fun s htarget => ?_
    by_contra hen
    exact hslot ⟨s, htarget, by simpa using hen⟩

/-- The slot an address phase is about is the one its address is decoded to. -/
theorem decodedSlot_of_addrTargetOf (h : addrTargetOf c x i m = .slot s) :
    (pregated (x.master m) (i.master m).phase).HTRANS = true ∧
      decodedSlot c.map (pregated (x.master m) (i.master m).phase).HADDR (remapOf i m) = some s := by
  unfold addrTargetOf addrTarget at h
  split at h
  · refine ⟨by assumption, ?_⟩
    cases hdec : decodedSlot c.map (pregated (x.master m) (i.master m).phase).HADDR (remapOf i m) with
    | none => simp [hdec, Target.ofDecoded] at h
    | some t => simpa [hdec, Target.ofDecoded] using h
  · cases h

/-- An address phase that goes on and is not taken is kept. -/
theorem registered_of_waits (hwf : (x.master m).WellFormed (c.slotEnable m))
    (hgoes : GoesOn c x i m)
    (hen : c.slotEnable m s = true) (htarget : addrTargetOf c x i m = .slot s)
    (hwait : ¬Takes c x i m s) : ((matrixNext c x i).master m).addrRegSM = .registered := by
  have hnot := (saddrready_eq_false_iff hen htarget).mpr hwait
  obtain ⟨htrans, hdec⟩ := decodedSlot_of_addrTargetOf htarget
  refine (addrRegSM_masterNext c.map (c.slotEnable m) (remapOf i m) (x.master m)
    (i.master m).phase (slaveView c x i m)).mpr ?_
  rcases hgoes with hs | ⟨hs, hready⟩
  · refine Or.inr ⟨hs, fun t ht => ?_⟩
    rw [hdec, Option.some.injEq] at ht
    exact ht ▸ hnot
  · rw [hwf.pregated_of_idle hs] at htrans
    exact Or.inl ⟨hs, htrans, hready, s, hdec, hnot⟩

/-- **When a stage keeps an address after an edge**: the master went on, or had been waiting, and no slave
takes the address. -/
theorem registered_matrixNext_iff (hwf : (x.master m).WellFormed (c.slotEnable m))
    (hkept : (x.master m).addrRegSM = .registered →
      ∃ s, c.slotEnable m s = true ∧ addrTargetOf c x i m = .slot s) :
    ((matrixNext c x i).master m).addrRegSM = .registered ↔
      GoesOn c x i m ∧
        ∃ s, c.slotEnable m s = true ∧ addrTargetOf c x i m = .slot s ∧ ¬Takes c x i m s := by
  have hstage := addrRegSM_masterNext c.map (c.slotEnable m) (remapOf i m) (x.master m)
    (i.master m).phase (slaveView c x i m)
  constructor
  · intro hnext
    rcases hstage.mp hnext with ⟨hs, htrans, hready, s, hdec, hwait⟩ | ⟨hs, hall⟩
    · have htarget : addrTargetOf c x i m = .slot s := by
        rw [addrTargetOf, addrTarget, hwf.pregated_of_idle hs, if_pos htrans]
        rw [hwf.pregated_of_idle hs] at hdec
        rw [hdec]
        rfl
      have hen : c.slotEnable m s = true := by
        by_contra hno
        rw [saddrready_of_not_enabled (by simpa using hno)] at hwait
        cases hwait
      exact ⟨Or.inr ⟨hs, hready⟩, s, hen, htarget, (saddrready_eq_false_iff hen htarget).mp hwait⟩
    · obtain ⟨s, hen, htarget⟩ := hkept hs
      have hdec := (decodedSlot_of_addrTargetOf htarget).2
      exact ⟨Or.inl hs, s, hen, htarget, (saddrready_eq_false_iff hen htarget).mp (hall s hdec)⟩
  · rintro ⟨hgoes, s, hen, htarget, hwait⟩
    exact registered_of_waits hwf hgoes hen htarget hwait

theorem target_matrixNext (hwf : (x.master m).WellFormed (c.slotEnable m)) :
    ((matrixNext c x i).master m).target =
      if (masterOut c x i m).PREVDATASLAVEREADY then addrTargetOf c x i m
      else (x.master m).target :=
  hwf.target_masterNext

theorem masterDataInProg_matrixNext (hen : c.slotEnable m s = true) :
    ((matrixNext c x i).slave s).masterDataInProg =
      if (i.slave s).HREADYOUT then grantOf c x i s else (x.slave s).masterDataInProg := by
  simp only [matrixNext, slaveNext, grantOf]
  rw [show (slaveStageIn c x i s).HREADYOUT = (i.slave s).HREADYOUT from
    intHREADYOUT_of_enabled hen]

end WireLemmas

/-! ### What the matrix does not look at -/

/-- The two inputs differ at most in the address phases of masters whose stage keeps one already. -/
structure SameSeen (x : MatrixReg) (i i' : MatrixIn) : Prop where
  remap : i.REMAP_M0 = i'.REMAP_M0
  slave : i.slave = i'.slave
  data : ∀ m, (i.master m).HWDATA = (i'.master m).HWDATA
  phase : ∀ m, (x.master m).addrRegSM = .idle → (i.master m).phase = (i'.master m).phase

section Seen

variable {c : MatrixGenerics} {x : MatrixReg} {i i' : MatrixIn}
  (hwf : ∀ m, (x.master m).WellFormed (c.slotEnable m)) (h : SameSeen x i i')

include h

theorem SameSeen.remapOf (m : MasterId) : remapOf i m = remapOf i' m := by
  rw [CoreAhbLite.remapOf, CoreAhbLite.remapOf, h.remap]

theorem SameSeen.masterHREADYOUT (m : MasterId) : masterHREADYOUT c i m = masterHREADYOUT c i' m := by
  funext s
  rw [CoreAhbLite.masterHREADYOUT, CoreAhbLite.masterHREADYOUT, h.slave]

include hwf

theorem SameSeen.pregated (m : MasterId) :
    pregated (x.master m) (i.master m).phase = pregated (x.master m) (i'.master m).phase := by
  cases hs : (x.master m).addrRegSM with
  | idle => rw [h.phase m hs]
  | registered => rw [(hwf m).pregated_of_registered hs, (hwf m).pregated_of_registered hs]

theorem SameSeen.slaveStageIn (s : SlotId) : slaveStageIn c x i s = slaveStageIn c x i' s := by
  have hsel : ∀ m, saddrsel c.map (CoreAhbLite.remapOf i m) (x.master m) (i.master m).phase =
      saddrsel c.map (CoreAhbLite.remapOf i' m) (x.master m) (i'.master m).phase := fun m => by
    rw [saddrsel, saddrsel, addressDecode, addressDecode, h.pregated hwf m, h.remapOf m]
  have hgated : ∀ m, gated c.map (CoreAhbLite.remapOf i m) (x.master m) (i.master m).phase =
      gated c.map (CoreAhbLite.remapOf i' m) (x.master m) (i'.master m).phase := fun m => by
    rw [gated, gated, addressDecode, addressDecode, h.pregated hwf m, h.remapOf m]
  have hprev : ∀ m, prevDataSlaveReady c x i m = prevDataSlaveReady c x i' m := fun m => by
    rw [prevDataSlaveReady, prevDataSlaveReady, h.masterHREADYOUT m]
  simp only [CoreAhbLite.slaveStageIn, intHREADYOUT, intHRESP, h.slave, h.data, hsel, hgated, hprev]

/-- **A master whose stage keeps an address is not heard**: nothing the matrix does depends on what that
master presents. -/
theorem SameSeen.matrixNext : matrixNext c x i = matrixNext c x i' := by
  have hin : CoreAhbLite.slaveStageIn c x i = CoreAhbLite.slaveStageIn c x i' := by
    funext s
    exact h.slaveStageIn hwf s
  have hview : ∀ m, slaveView c x i m = slaveView c x i' m := by
    intro m
    simp only [slaveView, slaveOut, hin, h.slave, h.masterHREADYOUT m]
  have hmaster : ∀ m, masterNext c.map (c.slotEnable m) (CoreAhbLite.remapOf i m) (x.master m)
      (i.master m).phase (slaveView c x i m) = masterNext c.map (c.slotEnable m)
        (CoreAhbLite.remapOf i' m) (x.master m) (i'.master m).phase (slaveView c x i' m) := by
    intro m
    rw [hview m, h.remapOf m]
    cases hs : (x.master m).addrRegSM with
    | idle => rw [h.phase m hs]
    | registered => exact masterNext_of_registered (hwf m) hs _
  simp only [CoreAhbLite.matrixNext, hin, hmaster]

end Seen

end SidBridge.CoreAhbLite
