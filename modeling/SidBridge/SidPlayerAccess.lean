import Mathlib.Data.Fintype.Basic
import Mathlib.Tactic.Common
import SidBridge.ReadData
import SidBridge.RegisterFile
import SidBridge.SidPlayerDelivery
import SidBridge.WriteOrder

/-!
# From the processor to the pins of the SID

The laws of the pins, read off the processor's port: through the bus core, the bridge and the divider.
The conditions are again those on the processor.

* `sidWriteIssued`, `writeRequests_bridgeInp` — the writes to the SID the processor sees accepted;
* `SlowEnough`, `sidFreq_of_slowEnough` — the processor never sets a divider value that is too small;
* `m0_waits` — the processor waits exactly the wait states of the bridge;
* `sidWrites_delivered` — **what the processor writes to the SID is what the SID is handed**, in order;
* `sidRead_delivered` — **what the processor reads is the byte the SID put on its pins**;
* `regWriteIssued`, `registerWord`, `regRead_delivered` — **a register reads as the processor wrote it last**.
-/

namespace SidBridge

open CoreAhbLite

/-- The write to the SID that the processor sees accepted in cycle `n`. -/
def sidWriteIssued (inp : ℕ → PlayerIn) (n : ℕ) : Option PinWrite :=
  match sidIssued inp n with
  | some (.sidWrite addr byte) => some (addr, pinsOfByte byte)
  | _ => none

/-- The write to a register of the bridge that the processor sees accepted in cycle `n`. -/
def regWriteIssued (inp : ℕ → PlayerIn) (n : ℕ) : Option (BitVec 2 × BitVec 32) :=
  match sidIssued inp n with
  | some (.regWrite addr data) => some (addr, data)
  | _ => none

/-- What a register reads as, with the word written to it last. -/
def registerWord (addr : BitVec 2) (last : Option (BitVec 32)) : BitVec 32 :=
  match addr with
  | 0b00#2 => (BitVec.ofBool ((last.map fun d => d.getLsbD 0).getD false)).setWidth 32
  | 0b01#2 => ((last.map fun d => d.extractLsb' 0 8).getD 0b00100011#8).setWidth 32
  | _ => 0

/-- The processor never writes a divider value below three. -/
def SlowEnough (inp : ℕ → PlayerIn) : Prop :=
  ∀ n data, sidIssued inp n = some (.regWrite 0b01#2 data) → 3 ≤ (data.extractLsb' 0 8).toNat

/-- The registers of the bridge hold what was written to them last. -/
theorem registerValue_run {inp : ℕ → Ports} (hrst : ∀ n, (inp n).HRESETN = true) (k : ℕ)
    (addr : BitVec 2) : registerValue (run inp k) addr =
      registerWord addr (Sync.latest (Sync.events (registerWrites inp) k) addr) := by
  have hall : ∀ b : BitVec 2, b = 0#2 ∨ b = 1#2 ∨ b = 2#2 ∨ b = 3#2 := by decide
  obtain rfl | rfl | rfl | rfl := hall addr
  · exact congrArg (fun b => (BitVec.ofBool b).setWidth 32) (sidRstN_run hrst k)
  · exact congrArg (fun freq => freq.setWidth 32) (sidFreq_run hrst k)
  · rfl
  · rfl

section Access

variable {inp : ℕ → PlayerIn} (hbus : PlayerBus inp) (hno : ∀ n, ¬StalledSidAddress inp n)

include hbus hno

/-! ### Wait states -/

/-- A SID access of the processor, on the signals of the bridge. -/
theorem course_of_issued (hgap : Spaced inp) {a : ℕ} (hissue : (sidIssued inp a).isSome = true)
    (haddr : (inp a).M0.phase.HADDR.getLsbD 14 = true) :
    ∃ sel rise, Course (run (bridgeInp inp)) (bridgeInp inp a) a
        (run (bridgeInp inp) a).sidFreq.toNat sel rise ∧
      waitStates (player inp a).bridge = rise + (run (bridgeInp inp) a).sidFreq.toNat + 4 := by
  obtain ⟨-, hs, hsel⟩ := taken_iff.mp (taken_of_issued hbus hno hgap hissue)
  have h14 : (bridgeInp inp a).haddr14 = true := by
    rw [Ports.haddr14, (phase_of_hsel (conforms_of_unstalled hbus hno a) hsel).1]
    exact haddr
  rw [player_bridge]
  exact ⟨_, _, course (run_isRun _) (fun _ => rfl) busSafe_resetReg (sidRequest_iff.mpr ⟨hs, hsel, h14⟩),
    waitStates_eq _⟩

/-- **The processor waits exactly as long as the bridge**, for a read and for a write, and gets no error. -/
theorem m0_waits (hgap : Spaced inp) {a : ℕ} (hissue : (sidIssued inp a).isSome = true)
    (haddr : (inp a).M0.phase.HADDR.getLsbD 14 = true) :
    (∀ k, 0 < k → k ≤ waitStates (player inp a).bridge → (m0Out inp (a + k)).HREADY_M = false) ∧
      (m0Out inp (a + (waitStates (player inp a).bridge + 1))).HREADY_M = true ∧
      (m0Out inp (a + (waitStates (player inp a).bridge + 1))).HRESP = false ∧
      (m0Out inp (a + (waitStates (player inp a).bridge + 1))).HRDATA =
        (run (bridgeInp inp) (a + (waitStates (player inp a).bridge + 1))).HRDATA := by
  obtain ⟨sel, rise, hcourse, hwaits⟩ := course_of_issued hbus hno hgap hissue haddr
  rw [hwaits]
  revert hcourse
  generalize (run (bridgeInp inp) a).sidFreq.toNat = F
  intro hcourse
  -- the last wait state keeps the processor in its data phase
  have hlast : (player inp (a + (rise + F + 4))).bridge.HREADYOUT = false := by
    rw [player_bridge]
    exact hcourse.ready _ (by omega) (by omega)
  have h := conforms_of_unstalled hbus hno (a + (rise + F + 4))
  have htarget : ((player inp (a + (rise + F + 5))).matrix.master masterM0).target = .slot slotS1 := by
    refine ((matrixInv_run h).waits_next (idle_player h) (target_of_bridge_busy h hlast)
      slotEnable_slotS1 ?_).2
    rw [matrixInp_slotS1]
    exact hlast
  obtain ⟨hout, -⟩ := data_of_slotS1 (conforms_of_unstalled hbus hno (a + (rise + F + 5))) htarget
  have hsafe := busSafe_run (bridgeInp inp) (a + (rise + F + 5))
  rw [show rise + F + 4 + 1 = rise + F + 5 from rfl, hout, player_bridge]
  refine ⟨fun k hk hle => (m0_data_of_busy hbus hno (hcourse.ready k hk (by omega))).1,
    hsafe.ready_of (Or.inl hcourse.done), ?_, rfl⟩
  rw [hsafe.hresp]
  rfl

/-! ### Writes -/

/-- **The bridge is asked for the writes of the processor.** -/
theorem writeRequests_bridgeInp (hgap : Spaced inp) (n : ℕ) :
    writeRequests (bridgeInp inp) n = sidWriteIssued inp n := by
  by_cases htaken : taken (run (bridgeInp inp) n) (bridgeInp inp n) = true
  · obtain ⟨-, hs, hsel⟩ := taken_iff.mp htaken
    rw [sidWriteIssued, sidIssued_of_taken hbus hno htaken]
    cases h14 : (bridgeInp inp n).haddr14 <;> cases hw : (bridgeInp inp n).HWRITE <;>
      simp [writeRequests, writeRequest, sidRequest, transferOf, hs, hsel, h14, hw]
  · rw [sidWriteIssued, sidIssued_of_not_taken hbus hno hgap htaken, writeRequests, if_neg]
    intro hwrite
    obtain ⟨hs, hsel, -⟩ := sidRequest_iff.mp (Bool.and_eq_true_iff.mp hwrite).1
    exact htaken (taken_iff.mpr ⟨rfl, hs, hsel⟩)

theorem holdsWriteData_bridgeInp : HoldsWriteData (bridgeInp inp) := by
  intro a hwrite k hk hbusy
  have hmaster := ahbMaster_bridgeInp hbus hno
  obtain ⟨hreq, hw⟩ := Bool.and_eq_true_iff.mp hwrite
  obtain ⟨hs, hsel, -⟩ := sidRequest_iff.mp hreq
  refine hmaster.data_held a ?_ hw k hk hbusy
  rw [hmaster.accepted_of_taken (taken_iff.mpr ⟨rfl, hs, hsel⟩)]
  rfl

/-- **The divider value** is the one after a reset or one the processor wrote. -/
theorem sidFreq_of_slowEnough (hslow : SlowEnough inp) (n : ℕ) :
    3 ≤ (run (bridgeInp inp) n).sidFreq.toNat := by
  induction n with
  | zero =>
    show 3 ≤ (0b00100011#8).toNat
    decide
  | succ n ih =>
    rw [run_succ, nextReg_eq _ rfl]
    by_cases hupdate : registerUpdate (run (bridgeInp inp) n) 0b01#2 = true
    · -- the update is the execution of a register write, so it was accepted
      have hexec : executions (bridgeInp inp) n = some (.regWrite 0b01#2 (bridgeInp inp n).HWDATA) :=
        executed_of_registerAccess rfl (registerAccess_of_registerUpdate hupdate)
      have hmem : Transfer.regWrite 0b01#2 (bridgeInp inp n).HWDATA ∈
          Sync.events (executions (bridgeInp inp)) (n + 1) :=
        Sync.mem_events.mpr ⟨n, Nat.lt_succ_self n, hexec⟩
      obtain ⟨k, -, hissue⟩ := Sync.mem_events.mp ((executions_sublist hbus hno (n + 1)).subset hmem)
      simp only [hupdate, if_true]
      exact hslow k _ hissue
    · simp only [hupdate, Bool.false_eq_true, if_false]
      exact ih

/-- **The processor's writes reach the SID**, each once, in order, with its address and byte, less one while
the processor waits for it. -/
theorem sidWrites_delivered (cell : Bibuf) (hgap : Spaced inp) (hslow : SlowEnough inp) (n : ℕ) :
    ∃ p, Sync.events (sidWriteIssued inp) n = Sync.events (writeStrobes cell (bridgeInp inp)) n ++ p ∧
      p.length ≤ 1 ∧ (p ≠ [] → (m0Out inp n).HREADY_M = false) := by
  have hsame : writeRequests (bridgeInp inp) = sidWriteIssued inp := by
    funext k
    exact writeRequests_bridgeInp hbus hno hgap k
  have hpending := pendingWrite_length_le_one (run (bridgeInp inp) n) (bridgeInp inp n)
  refine ⟨pendingWrite (run (bridgeInp inp) n) (bridgeInp inp n), ?_, hpending.1, fun hne => ?_⟩
  · rw [← hsame]
    exact Sync.events_eq_append_pending
      (fun k => pendingWrite (run (bridgeInp inp) k) (bridgeInp inp k)) rfl
      (pendingWrite_step (fun _ => rfl) cell (holdsWriteData_bridgeInp hbus hno)
        fun k _ => sidFreq_of_slowEnough hbus hno hslow k) n
  · refine (m0_data_of_busy hbus hno ?_).1
    rw [(busSafe_run (bridgeInp inp) n).hreadyout, StateType.isSidAccess, hpending.2 hne, Bool.or_true]
    rfl

omit hbus hno in
/-- The SID is handed the two bytes of the processor at work, in their order. -/
theorem sidWrites_delivered_tuneRun : Sync.events (writeStrobes bibuf (bridgeInp tuneRun)) 44 =
    [(0x18#5, pinsOfByte 0x0F#8), (0x04#5, pinsOfByte 0x11#8)] := by
  have hslow : SlowEnough tuneRun := by
    intro n data hwrite
    obtain rfl := regWrite_tuneRun hwrite
    have hdata : sidIssued tuneRun 0 = some (.regWrite 0b01#2 0xF04#32) := by decide +kernel
    rw [hdata, Option.some.injEq, Transfer.regWrite.injEq] at hwrite
    rw [← hwrite.2]
    decide
  obtain ⟨p, heq, -, hp⟩ :=
    sidWrites_delivered playerBus_tuneRun unstalled_tuneRun bibuf spaced_tuneRun hslow 44
  have hnil : p = [] := by
    by_contra hne
    exact absurd (hp hne) (by decide +kernel)
  rw [hnil, List.append_nil] at heq
  rw [← heq]
  decide +kernel

/-! ### Reads -/

/-- **The processor reads the byte on the pins** in the low cycle after the first strobe of its read, at the
end of the wait states of the bridge. -/
theorem sidRead_delivered (cell : Bibuf) (pins : ℕ → BitVec 8)
    (hpins : ∀ n, SamplesPins cell (pins n) (bridgeInp inp n)) (hgap : Spaced inp) {a : ℕ}
    {addr : BitVec 5} (hissue : sidIssued inp a = some (.sidRead addr)) :
    ∃ up down, a < up ∧ IsReadStrobe (run (bridgeInp inp)) addr up down ∧
      (∀ up' down', a < up' → IsReadStrobe (run (bridgeInp inp)) addr up' down' → up ≤ up') ∧
      (∀ k, 0 < k → k ≤ waitStates (player inp a).bridge → (m0Out inp (a + k)).HREADY_M = false) ∧
      (m0Out inp (a + (waitStates (player inp a).bridge + 1))).HREADY_M = true ∧
      (m0Out inp (a + (waitStates (player inp a).bridge + 1))).HRESP = false ∧
      (m0Out inp (a + (waitStates (player inp a).bridge + 1))).HRDATA =
        (pins (down + 1)).setWidth 32 := by
  have hsome : (sidIssued inp a).isSome = true := by rw [hissue]; rfl
  have htransfer := sidIssued_of_taken hbus hno (taken_of_issued hbus hno hgap hsome)
  rw [hissue, Option.some.injEq] at htransfer
  obtain ⟨h14, hw, rfl⟩ : (bridgeInp inp a).haddr14 = true ∧ (bridgeInp inp a).HWRITE = false ∧
      addr = (bridgeInp inp a).haddr62 := by
    cases h14 : (bridgeInp inp a).haddr14 <;> cases hw : (bridgeInp inp a).HWRITE <;>
      simp_all [transferOf]
  have hsel := (taken_iff.mp (taken_of_issued hbus hno hgap hsome)).2.2
  have haddr : (inp a).M0.phase.HADDR.getLsbD 14 = true := by
    rw [← (phase_of_hsel (conforms_of_unstalled hbus hno a) hsel).1]
    exact h14
  obtain ⟨hbusy, hready, hresp, hdata⟩ := m0_waits hbus hno hgap hsome haddr
  obtain ⟨sel, rise, hcourse, hwaits⟩ := course_of_issued hbus hno hgap hsome haddr
  refine ⟨_, _, ?_, hcourse.isReadStrobe hw, fun up' down' hup hstrobe =>
    hcourse.readStrobe_first hup hstrobe, hbusy, hready, hresp, ?_⟩
  · have := hcourse.sel_lt_rise
    omega
  · rw [hdata, hwaits, hcourse.read_answer (fun _ => rfl) hw, (samplesPins_iff cell _ _).mp (hpins _)]

omit hbus hno in
/-- The read of the processor at work ends with the byte the SID shows from then on. -/
theorem sidRead_delivered_tuneRun : (m0Out tuneRun 64).HRDATA = 0xA5#32 := by
  have hissue : sidIssued tuneRun 44 = some (.sidRead 0x1B#5) := by decide +kernel
  have hwaits : waitStates (player tuneRun 44).bridge = 19 := by decide +kernel
  obtain ⟨up, down, hup, hstrobe, -, -, -, -, hdata⟩ :=
    sidRead_delivered playerBus_tuneRun unstalled_tuneRun bibuf (fun n => (tuneRun n).sidDataI)
      (fun n _ => rfl) spaced_tuneRun hissue
  have hle := hstrobe.nonempty
  rw [hwaits] at hdata
  rw [hdata]
  show (if down + 1 ≤ 44 then 0 else 0xA5#8).setWidth 32 = 0xA5#32
  rw [if_neg (by omega)]
  rfl

/-! ### Registers -/

/-- The log of the bridge is the log of the processor, one cycle later. -/
theorem registerWrites_bridgeInp (hgap : Spaced inp) (n : ℕ) :
    registerWrites (bridgeInp inp) (n + 1) = regWriteIssued inp n := by
  rw [registerWrites, regWriteIssued]
  by_cases htaken : taken (run (bridgeInp inp) n) (bridgeInp inp n) = true
  · obtain ⟨-, hs, hsel⟩ := taken_iff.mp htaken
    rw [sidIssued_of_taken hbus hno htaken]
    cases h14 : (bridgeInp inp n).haddr14 <;> cases hw : (bridgeInp inp n).HWRITE <;>
      simp [registerWrite, transferOf, hs, hsel, h14, hw]
  · rw [sidIssued_of_not_taken hbus hno hgap htaken, if_neg]
    intro hwrite
    obtain ⟨hs, hsel, -⟩ := registerWrite_iff.mp hwrite
    exact htaken (taken_iff.mpr ⟨rfl, hs, hsel⟩)

theorem events_registerWrites (hgap : Spaced inp) (n : ℕ) :
    Sync.events (registerWrites (bridgeInp inp)) (n + 1) = Sync.events (regWriteIssued inp) n := by
  induction n with
  | zero => rfl
  | succ n ih =>
    rw [Sync.events_succ, ih, registerWrites_bridgeInp hbus hno hgap n, ← Sync.events_succ]

/-- In the cycle of its own access the processor has no register write in its data phase. -/
theorem events_regWriteIssued (hgap : Spaced inp) {a : ℕ} (haddr : addressesSid (inp a) = true) :
    Sync.events (registerWrites (bridgeInp inp)) a = Sync.events (regWriteIssued inp) a := by
  cases a with
  | zero => rfl
  | succ k =>
    have hnone : regWriteIssued inp k = none := by
      unfold regWriteIssued
      split
      · rename_i addr data hwrite
        rw [hgap k addr data hwrite] at haddr
        cases haddr
      · rfl
    rw [events_registerWrites hbus hno hgap, Sync.events_succ_none hnone]

/-- **The processor reads back what it wrote last**, or the reset value, in the next cycle. -/
theorem regRead_delivered (hgap : Spaced inp) {a : ℕ} {addr : BitVec 2}
    (hissue : sidIssued inp a = some (.regRead addr)) :
    (m0Out inp (a + 1)).HREADY_M = true ∧ (m0Out inp (a + 1)).HRESP = false ∧
      (m0Out inp (a + 1)).HRDATA =
        registerWord addr (Sync.latest (Sync.events (regWriteIssued inp) a) addr) := by
  have hsome : (sidIssued inp a).isSome = true := by rw [hissue]; rfl
  have htaken := taken_of_issued hbus hno hgap hsome
  have htransfer := sidIssued_of_taken hbus hno htaken
  obtain ⟨-, hs, hsel⟩ := taken_iff.mp htaken
  obtain ⟨hasks, hgoes⟩ := sidIssued_isSome_iff.mp hsome
  rw [hissue, Option.some.injEq] at htransfer
  obtain ⟨h14, hw, rfl⟩ : (bridgeInp inp a).haddr14 = false ∧ (bridgeInp inp a).HWRITE = false ∧
      addr = (bridgeInp inp a).haddr32 := by
    cases h14 : (bridgeInp inp a).haddr14 <;> cases hw : (bridgeInp inp a).HWRITE <;>
      simp_all [transferOf]
  have hread := registerRead_iff.mpr ⟨hs, hsel, h14, hw⟩
  have hidle : (run (bridgeInp inp) (a + 1)).state = .stIdle := state_nextReg_of_registerRead rfl hread
  have hsafe := busSafe_run (bridgeInp inp) (a + 1)
  have htarget := target_of_issued (conforms_of_unstalled hbus hno a) hasks hgoes
  rw [(data_of_slotS1 (conforms_of_unstalled hbus hno (a + 1)) htarget).1, player_bridge]
  refine ⟨hsafe.ready_of (Or.inl hidle), ?_, ?_⟩
  · rw [hsafe.hresp]
    rfl
  · rw [← events_regWriteIssued hbus hno hgap hasks]
    show (run (bridgeInp inp) (a + 1)).HRDATA = _
    rw [run_succ, HRDATA_nextReg_of_registerRead rfl hread]
    exact registerValue_run (fun _ => rfl) a _

omit hbus hno in
/-- Of the word the processor at work wrote in cycle 0, the low byte comes back in cycle 65. -/
theorem regRead_delivered_tuneRun : (m0Out tuneRun 65).HRDATA = 0x04#32 := by
  have hissue : sidIssued tuneRun 64 = some (.regRead 0b01#2) := by decide +kernel
  have hlast : Sync.latest (Sync.events (regWriteIssued tuneRun) 64) 0b01#2 = some 0xF04#32 := by
    decide +kernel
  rw [(regRead_delivered playerBus_tuneRun unstalled_tuneRun spaced_tuneRun hissue).2.2, hlast]
  rfl

end Access

end SidBridge
