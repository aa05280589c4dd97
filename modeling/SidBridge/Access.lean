import SidBridge.BusSafety
import SidBridge.Sync.Strober

/-!
# The course of a SID access

The two chains of six states do the same thing to the clock: wait for a low `sid_clk`, a high one, a low
one, and count three more cycles.  Forgetting the data and the direction, the bridge *is* a strober with
a tail of two, whose limit is `sid_freq`.

* `StateType.stage`, `strober` — the projection;
* `strober_nextReg`, `isRun_strober` — the refinement: every edge of the bridge is an edge of the
  strober;
* `access_timeline` — so every access follows the strober's timeline;
* `access_direction`, `access_addr`, `access_freq` — what stays while it does;
* `access_csN`, `access_oe`, `access_rw`, `access_capture` — what the pins do meanwhile;
* `Course`, `course`, `course_of_busy` — an access on the bridge's own signals, and the request behind
  every busy cycle;
* `HighPhase`, `selectedFall` — the high phase of an access, and the falling edge that ends it;
* `waitStates`, `waitStates_le`, `waitStates_exact` — the number of wait states, from the registers under
  the request alone.
-/

namespace SidBridge

open Sync (IsRun Stage Strober Timeline selectAt riseAt)

/-- Where a state stands in its chain. -/
def StateType.stage : StateType → Stage
  | .stReadSidSt1 | .stWriteSidSt1 => .waitLow
  | .stReadSidSt2 | .stWriteSidSt2 => .waitHigh
  | .stReadSidSt3 | .stWriteSidSt3 => .waitFall
  | .stReadSidSt4 | .stWriteSidSt4 => .hold 2
  | .stReadSidSt5 | .stWriteSidSt5 => .hold 1
  | .stReadSidSt6 | .stWriteSidSt6 => .hold 0
  | .stIdle | .stError | .stReadReg | .stWriteReg => .idle

namespace StateType

theorem stage_eq_idle_iff (s : StateType) : s.stage = .idle ↔ s.isSidAccess = false := by
  cases s <;> simp [stage, isSidAccess, isSidRead, isSidWrite]

theorem selected_stage (s : StateType) : s.stage.selected = s.isSelected := by
  cases s <;> rfl

end StateType

/-- The strober a register record holds. -/
def strober (reg : RegType) : Strober where
  stage := reg.state.stage
  clock := ⟨reg.sidClk, reg.sidClkCntr⟩
  limit := reg.sidFreq.toNat

/-- What the strober sees of a cycle. -/
def stroberInput (reg : RegType) (i : Ports) : Strober.Input where
  request := sidRequest reg i
  reload := (nextReg reg i).sidFreq.toNat

/-- **Refinement.**  An edge of the bridge is an edge of its strober, with three hold cycles. -/
theorem strober_nextReg (reg : RegType) (i : Ports) (h : i.HRESETN = true) :
    strober (nextReg reg i) = Strober.step 2 (strober reg) (stroberInput reg i) := by
  have hclock : (⟨(nextReg reg i).sidClk, (nextReg reg i).sidClkCntr⟩ : Sync.Divider)
      = Sync.Divider.tick reg.sidFreq.toNat ⟨reg.sidClk, reg.sidClkCntr⟩ := by
    rw [nextReg_eq reg h, Sync.Divider.tick]
    by_cases hlt : reg.sidClkCntr < reg.sidFreq.toNat <;> simp [hlt]
  have hstage : (nextReg reg i).state.stage
      = reg.state.stage.next 2 (sidRequest reg i) reg.sidClk := by
    rw [nextReg_eq reg h]
    cases hs : reg.state <;> simp only [nextState, hs, StateType.stage, Stage.next]
    case stIdle =>
      cases hw : registerWrite reg i with
      | true =>
        obtain ⟨_, _, haddr, _⟩ := registerWrite_iff.mp hw
        simp [sidRequest, haddr]
      | false => cases hr : sidRequest reg i <;> cases hd : i.HWRITE <;> simp
    case stError => simp [sidRequest, hs]
    case stReadReg => simp [sidRequest, hs]
    case stWriteReg => simp [sidRequest, hs]
    all_goals cases reg.sidClk <;> rfl
  have hlimit : (nextReg reg i).sidFreq.toNat
      = if reg.state.stage = .idle ∧ sidRequest reg i = false then (nextReg reg i).sidFreq.toNat
        else reg.sidFreq.toNat := by
    split
    · rfl
    · rename_i hbusy
      have hno : registerUpdate reg 0b01#2 = false := by
        cases hs : reg.state <;> simp_all [registerUpdate, StateType.stage, sidRequest]
      rw [nextReg_eq reg h, hno]
      rfl
  rw [strober, hclock, hstage, hlimit]
  rfl

/-- A SID request starts the chain of its direction. -/
theorem direction_of_sidRequest {reg : RegType} {i : Ports} (h : i.HRESETN = true)
    (hreq : sidRequest reg i = true) :
    (nextReg reg i).state.isSidWrite = i.HWRITE ∧ (nextReg reg i).state.isSidRead = !i.HWRITE := by
  obtain ⟨hs, hsel, haddr⟩ := sidRequest_iff.mp hreq
  rw [nextReg_eq reg h]
  cases hd : i.HWRITE <;>
    simp [nextState, hs, hreq, registerWrite, haddr, hd, StateType.isSidWrite, StateType.isSidRead]

/-- No edge changes from one chain to the other. -/
theorem direction_nextReg {reg : RegType} {i : Ports} (h : i.HRESETN = true)
    (hbusy : reg.state.stage ≠ .idle) (hbusy' : (nextReg reg i).state.stage ≠ .idle) :
    (nextReg reg i).state.isSidWrite = reg.state.isSidWrite ∧
      (nextReg reg i).state.isSidRead = reg.state.isSidRead := by
  rw [nextReg_eq reg h] at hbusy' ⊢
  cases hs : reg.state <;> cases hc : reg.sidClk <;>
    simp_all [nextState, StateType.stage, StateType.isSidWrite, StateType.isSidRead]

section Access

variable {r : ℕ → RegType} {inp : ℕ → Ports} (hr : IsRun nextReg r inp)
  (hrst : ∀ n, (inp n).HRESETN = true)

include hr hrst

theorem isRun_strober :
    IsRun (Strober.step 2) (fun n => strober (r n)) (fun n => stroberInput (r n) (inp n)) :=
  hr.map strober stroberInput (fun s i h => strober_nextReg s i h) hrst

/-- **The course of a SID access**, from the clock phase in which its request is taken. -/
theorem access_timeline {a : ℕ} (hreq : sidRequest (r a) (inp a) = true) :
    Timeline 2 (r a).sidFreq.toNat
      (selectAt (r a).sidClk (r a).sidClkCntr (r a).sidFreq.toNat)
      (riseAt (r a).sidClk (r a).sidClkCntr (r a).sidFreq.toNat)
      (fun k => strober (r (a + k))) := by
  apply Sync.timeline ((isRun_strober hr hrst).shift a)
  · simp only [Nat.add_zero, strober, (sidRequest_iff.mp hreq).1]
    rfl
  · exact hreq

/-- While an access lasts, its direction does. -/
theorem access_direction {a : ℕ} (hreq : sidRequest (r a) (inp a) = true) {F sel rise : ℕ}
    (h : Timeline 2 F sel rise (fun k => strober (r (a + k)))) :
    ∀ k, 0 < k → k < rise + F + 5 →
      (r (a + k)).state.isSidWrite = (inp a).HWRITE ∧
        (r (a + k)).state.isSidRead = !(inp a).HWRITE := by
  intro k
  induction k with
  | zero => intro hk; omega
  | succ k ih =>
    intro _ hlt
    rcases Nat.eq_zero_or_pos k with rfl | hpos
    · rw [hr (a + 0)]
      exact direction_of_sidRequest (hrst a) hreq
    · have hbusy := h.busy hpos (by omega)
      have hbusy' := h.busy (k := k + 1) (by omega) (by omega)
      have hnext : r (a + (k + 1)) = nextReg (r (a + k)) (inp (a + k)) := hr (a + k)
      obtain ⟨hwrite, hread⟩ := ih hpos (by omega)
      rw [hnext] at hbusy' ⊢
      obtain ⟨hwrite', hread'⟩ := direction_nextReg (hrst (a + k)) hbusy hbusy'
      exact ⟨hwrite'.trans hwrite, hread'.trans hread⟩

/-- While an access lasts, `sid_addr` is the address of its request. -/
theorem access_addr {a : ℕ} (hreq : sidRequest (r a) (inp a) = true) {F sel rise : ℕ}
    (h : Timeline 2 F sel rise (fun k => strober (r (a + k)))) :
    ∀ k, 0 < k → k ≤ rise + F + 5 → (r (a + k)).sidAddr = (inp a).haddr62 := by
  intro k hk hle
  have hfirst : (r (a + 1)).sidAddr = (inp a).haddr62 := by
    rw [hr a, nextReg_eq _ (hrst a)]
    exact if_pos hreq
  rw [← hfirst]
  refine Sync.frame_run (f := fun j => (r (a + j)).sidAddr) hk fun j hj hlt => ?_
  have hidle : (r (a + j)).state ≠ .stIdle := by
    intro hs
    exact h.busy hj (by omega) (by rw [strober, hs]; rfl)
  rw [← Nat.add_assoc, hr (a + j), sidAddr_nextReg_of_ne (hrst (a + j)) hidle]

/-- While an access lasts, `sid_freq` stays. -/
theorem access_freq {a : ℕ} (hreq : sidRequest (r a) (inp a) = true) {F sel rise : ℕ}
    (h : Timeline 2 F sel rise (fun k => strober (r (a + k)))) :
    ∀ k, k ≤ rise + F + 5 → (r (a + k)).sidFreq = (r a).sidFreq := by
  intro k hk
  apply BitVec.eq_of_toNat_eq
  exact Sync.limit_run ((isRun_strober hr hrst).shift a) hreq
    (fun j hj hlt => h.busy hj hlt) k hk

end Access

/-! ### An access on the bridge's own signals -/

/-- The bridge is ready exactly when its strober is idle. -/
theorem BusSafe.ready_iff_stage {reg : RegType} (h : BusSafe reg) :
    reg.HREADYOUT = true ↔ (strober reg).stage = .idle := by
  rw [h.hreadyout, Bool.not_eq_true', ← StateType.stage_eq_idle_iff]
  rfl

/-- The SID is selected exactly when the strober says so. -/
theorem BusSafe.selected_iff_stage {reg : RegType} (h : BusSafe reg) :
    reg.sidCsN = false ↔ (strober reg).stage.selected = true := by
  rw [h.selected_iff, ← StateType.selected_stage]
  rfl

/-- Past the second wait of a write, and only there, `sid_data` is driven. -/
theorem isDriving_iff_stage (s : StateType) : s.isDriving = true ↔
    s.isSidWrite = true ∧ s.stage.selected = true ∧ s.stage ≠ .waitHigh := by
  cases s <;> simp [StateType.isDriving, StateType.isSidWrite, StateType.stage, Stage.selected]

/-- The byte of a read is taken at the fall the third wait waits for. -/
theorem readCapture_iff_stage {reg : RegType} : readCapture reg = true ↔
    reg.state.isSidRead = true ∧ reg.state.stage = .waitFall ∧ reg.sidClk = false := by
  cases hs : reg.state <;> simp [readCapture, hs, StateType.isSidRead, StateType.stage]

/-- The last state of either chain leads to `st_idle` itself. -/
theorem state_of_hold_zero {reg : RegType} {i : Ports} (h : i.HRESETN = true)
    (hlast : reg.state.stage = .hold 0) : (nextReg reg i).state = .stIdle := by
  rw [nextReg_eq reg h]
  cases hs : reg.state <;> simp_all [StateType.stage, nextState]

section Signals

variable {r : ℕ → RegType} {inp : ℕ → Ports} (hr : IsRun nextReg r inp)
  (hrst : ∀ n, (inp n).HRESETN = true) (h0 : BusSafe (r 0)) {a : ℕ}
  (hreq : sidRequest (r a) (inp a) = true) {F sel rise : ℕ}
  (h : Timeline 2 F sel rise (fun k => strober (r (a + k))))

include hr h0 hreq h

/-- When an access holds `sid_cs_n` low. -/
theorem access_csN (k : ℕ) (hk : k ≤ rise + F + 5) :
    (r (a + k)).sidCsN = false ↔ sel < k ∧ k ≤ rise + F + 4 := by
  have hsafe := busSafe_of_isRun hr h0 (a + k)
  rcases Nat.eq_zero_or_pos k with rfl | hpos
  · rw [hsafe.selected_iff, Nat.add_zero, (sidRequest_iff.mp hreq).1]
    simp [StateType.isSelected]
  · rw [hsafe.selected_iff_stage]
    exact h.selected_iff hpos hk

include hrst

/-- When an access drives `sid_data`: from the second high cycle to the release, if it is a write. -/
theorem access_oe (k : ℕ) (hk : k ≤ rise + F + 5) :
    (r (a + k)).sidDataOe = true ↔ (inp a).HWRITE = true ∧ rise < k ∧ k ≤ rise + F + 4 := by
  have hsel := h.sel_lt_rise
  rw [(busSafe_of_isRun hr h0 (a + k)).oe]
  rcases Nat.eq_zero_or_pos k with rfl | hpos
  · rw [Nat.add_zero, (sidRequest_iff.mp hreq).1]
    simp [StateType.isDriving]
  · have hselected := h.selected_iff hpos hk
    have hhigh := h.waitHigh_iff hpos hk
    simp only [strober] at hselected hhigh
    rw [isDriving_iff_stage, hselected, Ne, hhigh]
    rcases Nat.lt_or_ge k (rise + F + 5) with hlt | hge
    · rw [(access_direction hr hrst hreq h k hpos hlt).1, and_congr_right_iff]
      intro _
      omega
    · constructor
      · intro hall
        obtain ⟨_, hin, _⟩ := hall
        omega
      · intro hall
        obtain ⟨_, _, hle⟩ := hall
        omega

/-- While an access selects the SID, `sid_rw` shows its direction. -/
theorem access_rw (k : ℕ) (hk : sel < k) (hle : k ≤ rise + F + 4) :
    (r (a + k)).sidRw = !(inp a).HWRITE := by
  have hsafe := busSafe_of_isRun hr h0 (a + k)
  have hcs := (access_csN hr h0 hreq h k (by omega)).mpr ⟨hk, hle⟩
  rw [hsafe.rw (hsafe.selected_iff.mp hcs)]
  exact (access_direction hr hrst hreq h k (by omega) (by omega)).2

omit h0 in
/-- A read takes its byte in the first low cycle after the high phase, and in no other. -/
theorem access_capture (k : ℕ) (hk : 0 < k) (hlt : k < rise + F + 5) :
    readCapture (r (a + k)) = true ↔ (inp a).HWRITE = false ∧ k = rise + F + 1 := by
  have hsel := h.sel_lt_rise
  rw [readCapture_iff_stage, (access_direction hr hrst hreq h k hk hlt).2, Bool.not_eq_true',
    and_congr_right_iff]
  intro _
  have hfall := h.waitFall_iff hk (by omega)
  simp only [strober] at hfall
  rw [hfall]
  constructor
  · intro hall
    obtain ⟨⟨hgt, hle⟩, hclk⟩ := hall
    by_contra hne
    have hhigh : (r (a + k)).sidClk = true :=
      (h.level_iff (k := k) (by omega) (by omega)).mpr (by omega)
    rw [hclk] at hhigh
    cases hhigh
  · intro hk
    subst hk
    have hlow : (r (a + (rise + F + 1))).sidClk = false := congrArg Sync.Divider.level h.falls.2
    exact ⟨by omega, hlow⟩

end Signals

/-- **A SID access on the signals of the bridge**, in cycles counted from its request in cycle `a`, whose
inputs are `i`: wait states, selection, clock, direction, address and drivers, cycle by cycle, to the
idle cycle `rise + F + 5` that ends it. -/
structure Course (r : ℕ → RegType) (i : Ports) (a F sel rise : ℕ) : Prop where
  sel_pos : 0 < sel
  sel_lt_rise : sel < rise
  ready : ∀ k, 0 < k → k < rise + F + 5 → (r (a + k)).HREADYOUT = false
  csN : ∀ k, k ≤ rise + F + 5 → ((r (a + k)).sidCsN = false ↔ sel < k ∧ k ≤ rise + F + 4)
  clk : ∀ k, sel ≤ k → k ≤ rise + F + 1 →
    ((r (a + k)).sidClk = true ↔ rise ≤ k ∧ k ≤ rise + F)
  clk_after : ∀ j, j ≤ F → j ≤ 5 →
    (r (a + (rise + F + 1 + j))).sidClk = false ∧ (r (a + (rise + F + 1 + j))).sidClkCntr = j
  single : (∀ k, sel < k → k ≤ rise + F + 4 →
    ((r (a + k)).sidClk = true ↔ rise ≤ k ∧ k ≤ rise + F)) ↔ 3 ≤ F
  oe : ∀ k, k ≤ rise + F + 5 →
    ((r (a + k)).sidDataOe = true ↔ i.HWRITE = true ∧ rise < k ∧ k ≤ rise + F + 4)
  rw : ∀ k, sel < k → k ≤ rise + F + 4 → (r (a + k)).sidRw = !i.HWRITE
  addr : ∀ k, 0 < k → k ≤ rise + F + 5 → (r (a + k)).sidAddr = i.haddr62
  freq : ∀ k, k ≤ rise + F + 5 → (r (a + k)).sidFreq = (r a).sidFreq
  capture : ∀ k, 0 < k → k < rise + F + 5 →
    (readCapture (r (a + k)) = true ↔ i.HWRITE = false ∧ k = rise + F + 1)
  done : (r (a + (rise + F + 5))).state = .stIdle

/-- **Every SID request starts such an access.** -/
theorem course {r : ℕ → RegType} {inp : ℕ → Ports} (hr : IsRun nextReg r inp)
    (hrst : ∀ n, (inp n).HRESETN = true) (h0 : BusSafe (r 0)) {a : ℕ}
    (hreq : sidRequest (r a) (inp a) = true) :
    Course r (inp a) a (r a).sidFreq.toNat
      (selectAt (r a).sidClk (r a).sidClkCntr (r a).sidFreq.toNat)
      (riseAt (r a).sidClk (r a).sidClkCntr (r a).sidFreq.toNat) := by
  have h := access_timeline hr hrst hreq
  have hrun := (isRun_strober hr hrst).shift a
  revert h
  generalize selectAt (r a).sidClk (r a).sidClkCntr (r a).sidFreq.toNat = sel
  generalize riseAt (r a).sidClk (r a).sidClkCntr (r a).sidFreq.toNat = rise
  generalize hF : (r a).sidFreq.toNat = F
  intro h
  have hafter := Sync.after_fall hrun hreq hF h
  refine ⟨h.sel_pos, h.sel_lt_rise, fun k hk hlt => ?_, access_csN hr h0 hreq h,
    fun k hk hle => h.level_iff hk hle, fun j hj hle => ?_, Sync.single_strobe_iff hrun hreq hF h,
    access_oe hr hrst h0 hreq h, access_rw hr hrst h0 hreq h, access_addr hr hrst hreq h,
    access_freq hr hrst hreq h, access_capture hr hrst hreq h, ?_⟩
  · rw [← Bool.not_eq_true, (busSafe_of_isRun hr h0 (a + k)).ready_iff_stage]
    exact h.busy hk hlt
  · have hclock := hafter.1 j hj hle
    simp only [strober, Sync.Divider.mk.injEq] at hclock
    exact hclock
  · -- the last hold cycle is the release edge
    have hlast := state_of_hold_zero (hrst (a + (rise + F + 4))) (h.holds 2 le_rfl)
    rwa [← hr] at hlast

theorem course_run {inp : ℕ → Ports} (hrst : ∀ n, (inp n).HRESETN = true) {a : ℕ}
    (hreq : sidRequest (run inp a) (inp a) = true) :
    ∃ sel rise, Course (run inp) (inp a) a (run inp a).sidFreq.toNat sel rise :=
  ⟨_, _, course (run_isRun inp) hrst busSafe_resetReg hreq⟩

/-! ### The high phase of an access -/

/-- A full high phase of `sid_clk`, from cycle `up` to cycle `down`, between two low cycles. -/
structure HighPhase (r : ℕ → RegType) (up down : ℕ) : Prop where
  nonempty : up ≤ down
  low_before : (r (up - 1)).sidClk = false
  high : ∀ k, up ≤ k → k ≤ down → (r k).sidClk = true
  low_after : (r (down + 1)).sidClk = false

/-- Every access has a full high phase. -/
theorem Course.highPhase {r : ℕ → RegType} {i : Ports} {a F sel rise : ℕ}
    (h : Course r i a F sel rise) : HighPhase r (a + rise) (a + (rise + F)) := by
  have hpos := h.sel_pos
  have hsel := h.sel_lt_rise
  refine ⟨by omega, ?_, fun k hk hle => ?_, ?_⟩
  · have hbefore := h.clk (rise - 1) (by omega) (by omega)
    rw [show a + rise - 1 = a + (rise - 1) by omega, ← Bool.not_eq_true, hbefore]
    omega
  · obtain ⟨k, rfl⟩ := Nat.exists_eq_add_of_le (show a ≤ k by omega)
    exact (h.clk k (by omega) (by omega)).mpr (by omega)
  · have hafter := h.clk (rise + F + 1) (by omega) (by omega)
    rw [Nat.add_assoc, ← Bool.not_eq_true, hafter]
    omega

/-- `sid_clk` falls between two cycles, and the SID is selected in the first of them. -/
def selectedFall (reg reg' : RegType) : Bool := reg.sidClk && !reg'.sidClk && !reg.sidCsN

theorem selectedFall_iff {reg reg' : RegType} : selectedFall reg reg' = true ↔
    reg.sidClk = true ∧ reg'.sidClk = false ∧ reg.sidCsN = false := by
  simp [selectedFall, and_assoc]

/-- With a divider value that outlasts the hold states, an access has one such fall: at the end of its
high phase. -/
theorem Course.selectedFall_iff {r : ℕ → RegType} {i : Ports} {a F sel rise : ℕ}
    (h : Course r i a F sel rise) (hF : 3 ≤ F) {k : ℕ} (hk : k ≤ rise + F + 4) :
    selectedFall (r (a + k)) (r (a + (k + 1))) = true ↔ k = rise + F := by
  have hsel := h.sel_lt_rise
  rw [SidBridge.selectedFall_iff]
  constructor
  · intro hall
    obtain ⟨hhigh, hfall, hcs⟩ := hall
    obtain ⟨hin, _⟩ := (h.csN k (by omega)).mp hcs
    obtain ⟨hup, hdown⟩ := (h.single.mpr hF k hin hk).mp hhigh
    by_contra hne
    have hnext := (h.clk (k + 1) (by omega) (by omega)).mpr (by omega)
    rw [hfall] at hnext
    cases hnext
  · rintro rfl
    have hphase := h.highPhase
    exact ⟨hphase.high _ (by omega) le_rfl, hphase.low_after, (h.csN _ (by omega)).mpr (by omega)⟩

/-! ### Every busy cycle has its request -/

/-- A SID access is entered by a request only. -/
theorem sidRequest_or_busy {reg : RegType} {i : Ports} (h : i.HRESETN = true)
    (hbusy : (nextReg reg i).state.isSidAccess = true) :
    sidRequest reg i = true ∨ reg.state.isSidAccess = true := by
  rw [state_nextReg h, isSidAccess_nextState, Bool.or_eq_true, Bool.and_eq_true] at hbusy
  exact hbusy.imp_right And.left

/-- Every cycle of a SID access lies after the request that started it, and in its direction. -/
theorem access_origin {inp : ℕ → Ports} (hrst : ∀ n, (inp n).HRESETN = true) {n : ℕ}
    (hbusy : (run inp n).state.isSidAccess = true) :
    ∃ a, a < n ∧ sidRequest (run inp a) (inp a) = true ∧
      (run inp n).state.isSidWrite = (inp a).HWRITE ∧
      ∀ j, a < j → j ≤ n → (run inp j).state.isSidAccess = true := by
  induction n with
  | zero => cases hbusy
  | succ n ih =>
    rw [run_succ] at hbusy
    by_cases hq : sidRequest (run inp n) (inp n) = true
    · refine ⟨n, Nat.lt_succ_self n, hq, (direction_of_sidRequest (hrst n) hq).1, fun j hj hle => ?_⟩
      obtain rfl : j = n + 1 := by omega
      exact hbusy
    · have hbefore := (sidRequest_or_busy (hrst n) hbusy).resolve_left hq
      obtain ⟨a, ha, hreq, hdir, hall⟩ := ih hbefore
      refine ⟨a, by omega, hreq, ?_, fun j hj hle => ?_⟩
      · rw [run_succ, ← hdir]
        apply (direction_nextReg (hrst n) _ _).1
        · simp [StateType.stage_eq_idle_iff, hbefore]
        · simp [StateType.stage_eq_idle_iff, hbusy]
      · rcases Nat.eq_or_lt_of_le hle with rfl | hlt
        · exact hbusy
        · exact hall j hj (by omega)

/-- Every cycle of a SID access lies inside the course of one request. -/
theorem course_of_busy {inp : ℕ → Ports} (hrst : ∀ n, (inp n).HRESETN = true) {n : ℕ}
    (hbusy : (run inp n).state.isSidAccess = true) :
    ∃ a k sel rise, n = a + k ∧ 0 < k ∧ k < rise + (run inp n).sidFreq.toNat + 5 ∧
      sidRequest (run inp a) (inp a) = true ∧ (run inp n).sidFreq = (run inp a).sidFreq ∧
      (run inp n).state.isSidWrite = (inp a).HWRITE ∧
      Course (run inp) (inp a) a (run inp n).sidFreq.toNat sel rise := by
  obtain ⟨a, ha, hreq, hdir, hall⟩ := access_origin hrst hbusy
  obtain ⟨k, rfl⟩ := Nat.exists_eq_add_of_le (Nat.le_of_lt ha)
  obtain ⟨sel, rise, h⟩ := course_run hrst hreq
  have hlt : k < rise + (run inp a).sidFreq.toNat + 5 := by
    by_contra hge
    have hend := hall (a + (rise + (run inp a).sidFreq.toNat + 5)) (by omega) (by omega)
    rw [h.done] at hend
    cases hend
  have hfreq := h.freq k (by omega)
  refine ⟨a, k, sel, rise, rfl, by omega, ?_, hreq, hfreq, hdir, ?_⟩
  · rw [hfreq]
    exact hlt
  · rw [hfreq]
    exact h

/-! ### Wait states -/

/-- The wait states of a SID request taken on the registers `reg`: `r` cycles to the next toggle of
`sid_clk`, whose half-period is `P`. -/
def waitStates (reg : RegType) : ℕ :=
  let P := reg.sidFreq.toNat + 1
  let r := reg.sidFreq.toNat - reg.sidClkCntr + 1
  if reg.sidClk then r + 2 * P + 3 else if 2 ≤ r then r + P + 3 else 3 * P + 4

theorem waitStates_eq (reg : RegType) : waitStates reg =
    riseAt reg.sidClk reg.sidClkCntr reg.sidFreq.toNat + reg.sidFreq.toNat + 4 := by
  simp only [waitStates, riseAt]
  cases reg.sidClk with
  | true => simp only [if_true]; omega
  | false =>
    simp only [Bool.false_eq_true, if_false]
    split <;> split <;> omega

/-- Three half-periods and seven cycles at most. -/
theorem waitStates_le (reg : RegType) : waitStates reg ≤ 3 * reg.sidFreq.toNat + 7 := by
  simp only [waitStates]
  split_ifs <;> omega

/-- **The exact wait-state law.**  From any reachable state, a SID request is answered with exactly
`waitStates` wait states and then `st_idle`, whatever the inputs do in the meantime. -/
theorem waitStates_exact {reg : RegType} (hreg : Reachable reg) (inp : ℕ → Ports)
    (hrst : ∀ n, (inp n).HRESETN = true) (hreq : sidRequest reg (inp 0) = true) :
    (∀ k, 0 < k → k ≤ waitStates reg → (Sync.run nextReg reg inp k).HREADYOUT = false) ∧
      (Sync.run nextReg reg inp (waitStates reg + 1)).state = .stIdle ∧
      (Sync.run nextReg reg inp (waitStates reg + 1)).HREADYOUT = true ∧
      waitStates reg ≤ 3 * reg.sidFreq.toNat + 7 := by
  have hr := Sync.isRun_run nextReg reg inp
  have hsafe := busSafe_of_isRun hr hreg.busSafe
  have hcourse := course hr hrst hreg.busSafe (a := 0) hreq
  have hready := hcourse.ready
  have hdone := hcourse.done
  simp only [Sync.run_zero, Nat.zero_add] at hready hdone
  rw [show ∀ n, n + reg.sidFreq.toNat + 5 = n + reg.sidFreq.toNat + 4 + 1 from fun _ => rfl,
    ← waitStates_eq] at hready hdone
  exact ⟨fun k hk hle => hready k hk (by omega), hdone, (hsafe _).ready_of (Or.inl hdone),
    waitStates_le reg⟩

/-- The law for a write in the first cycle after reset: 75 wait states. -/
theorem waitStates_exact_reset :
    (∀ k, 0 < k → k ≤ 75 → (run (sidWriteAt 0) k).HREADYOUT = false) ∧
      (run (sidWriteAt 0) 76).state = .stIdle := by
  have hreach : Reachable resetReg := ⟨sidWriteAt 0, 0, rfl⟩
  have h := waitStates_exact hreach (sidWriteAt 0) (sidWriteAt_no_reset 0) rfl
  exact ⟨h.1, h.2.1⟩

end SidBridge
