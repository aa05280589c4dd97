import SidBridge.Transitions

/-!
# Bus safety

`HREADYOUT`, `sid_cs_n`, `sid_data_oe` and `sid_rw` are registers of their own, set in one state and
cleared in another.  `BusSafe` says what they are worth in each state; every edge keeps it, a reset in
the middle of an access included, so it holds in every reachable state.

* `isSidAccess_nextState`, `isSelected_nextState`, `isDriving_nextState` — the edges at which the state
  enters and leaves each group of states;
* `BusSafe`, `busSafe_nextReg`, `busSafe_run` — the invariant and its induction;
* `state_nextReg_of_selected`, `not_selected_nextReg_of_idle`, `selected_keeps` — how an access is
  entered and left;
* `BusSafety`, `busSafety_run` — what the bus and the pins see of it along a run.
-/

namespace SidBridge

namespace StateType

/-- The states in which the SID is selected: `st2` to `st6` of either chain. -/
def isSelected : StateType → Bool
  | stReadSidSt2 | stReadSidSt3 | stReadSidSt4 | stReadSidSt5 | stReadSidSt6 => true
  | stWriteSidSt2 | stWriteSidSt3 | stWriteSidSt4 | stWriteSidSt5 | stWriteSidSt6 => true
  | _ => false

/-- The states in which the bridge drives `sid_data`: `st3` to `st6` of a write. -/
def isDriving : StateType → Bool
  | stWriteSidSt3 | stWriteSidSt4 | stWriteSidSt5 | stWriteSidSt6 => true
  | _ => false

theorem isSidAccess_of_isSelected {s : StateType} (h : s.isSelected = true) :
    s.isSidAccess = true := by
  cases s <;> simp_all [isSelected, isSidAccess, isSidRead, isSidWrite]

theorem isSidWrite_of_isDriving {s : StateType} (h : s.isDriving = true) :
    s.isSelected = true ∧ s.isSidRead = false := by
  cases s <;> simp_all [isDriving, isSelected, isSidRead]

theorem isSidWrite_of_isSelected {s : StateType} (h : s.isSelected = true)
    (hread : s.isSidRead = false) : s.isSidWrite = true := by
  cases s <;> simp_all [isSelected, isSidRead, isSidWrite]

end StateType

/-! ### Where the state moves -/

/-- A SID access is entered at a request and left at the release edge. -/
theorem isSidAccess_nextState (reg : RegType) (i : Ports) : (nextState reg i).isSidAccess =
    (sidRequest reg i || (reg.state.isSidAccess && !releaseEdge reg)) := by
  cases hs : reg.state <;> simp only [nextState, releaseEdge, hs]
  case stIdle =>
    cases hw : registerWrite reg i with
    | true => rw [sidRequest_of_registerWrite hw]; rfl
    | false => cases sidRequest reg i <;> cases i.HWRITE <;> rfl
  all_goals
    cases reg.sidClk <;>
      simp [sidRequest, hs, StateType.isSidAccess, StateType.isSidRead, StateType.isSidWrite]

/-- The selected states are entered at the select edge and left at the release edge. -/
theorem isSelected_nextState (reg : RegType) (i : Ports) : (nextState reg i).isSelected =
    (selectEdge reg || (reg.state.isSelected && !releaseEdge reg)) := by
  cases hs : reg.state <;> simp only [nextState, selectEdge, releaseEdge, hs]
  case stIdle => cases registerWrite reg i <;> cases sidRequest reg i <;> cases i.HWRITE <;> rfl
  all_goals cases reg.sidClk <;> rfl

/-- The driving states are entered at the drive edge and left after the last of them. -/
theorem isDriving_nextState (reg : RegType) (i : Ports) : (nextState reg i).isDriving =
    (driveEdge reg || (reg.state.isDriving && reg.state ≠ .stWriteSidSt6)) := by
  cases hs : reg.state <;> simp only [nextState, driveEdge, hs]
  case stIdle => cases registerWrite reg i <;> cases sidRequest reg i <;> cases i.HWRITE <;> rfl
  all_goals cases reg.sidClk <;> rfl

/-- An edge into a selected state stays in its chain. -/
theorem isSidRead_nextState {reg : RegType} {i : Ports} (h : (nextState reg i).isSelected = true) :
    (nextState reg i).isSidRead = reg.state.isSidRead := by
  rw [isSelected_nextState] at h
  cases hs : reg.state <;> simp only [nextState, hs]
  case stIdle => simp [selectEdge, hs, StateType.isSelected] at h
  all_goals
    cases reg.sidClk <;>
      simp_all [selectEdge, releaseEdge, StateType.isSelected, StateType.isSidRead]

/-- Two states have no way in. -/
theorem nextState_ne (reg : RegType) (i : Ports) :
    nextState reg i ≠ .stError ∧ nextState reg i ≠ .stReadReg := by
  cases hs : reg.state <;> simp only [nextState, hs]
  case stIdle => cases registerWrite reg i <;> cases sidRequest reg i <;> cases i.HWRITE <;> decide
  all_goals cases reg.sidClk <;> decide

/-! ### The invariant -/

/-- The worth of every control register in every state. -/
structure BusSafe (reg : RegType) : Prop where
  hreadyout : reg.HREADYOUT = !reg.state.isSidAccess
  hresp : reg.HRESP = 0
  csN : reg.sidCsN = !reg.state.isSelected
  oe : reg.sidDataOe = reg.state.isDriving
  rw : reg.state.isSelected = true → reg.sidRw = reg.state.isSidRead
  no_error : reg.state ≠ .stError
  no_read_reg : reg.state ≠ .stReadReg

theorem busSafe_resetReg : BusSafe resetReg := by
  constructor <;> decide

/-- **Every edge keeps the control registers in step with the state.** -/
theorem busSafe_nextReg {reg : RegType} (i : Ports) (h : BusSafe reg) : BusSafe (nextReg reg i) := by
  cases hreset : i.HRESETN with
  | false =>
    rw [nextReg_reset reg hreset]
    exact busSafe_resetReg
  | true =>
    have hdead := nextState_ne reg i
    rw [nextReg_eq reg hreset]
    refine ⟨?_, h.hresp, ?_, ?_, ?_, hdead.1, hdead.2⟩
    · rw [isSidAccess_nextState]
      by_cases hidle : reg.state = .stIdle
      · have hready : reg.HREADYOUT = true := by rw [h.hreadyout, hidle]; rfl
        cases sidRequest reg i <;> simp [hready, hidle, StateType.isSidAccess, StateType.isSidRead,
          StateType.isSidWrite]
      · -- outside `st_idle` only the release edge moves it
        simp only [sidRequest, registerWrite, registerRead, hidle, decide_false, Bool.false_and,
          Bool.false_or, Bool.false_eq_true, if_false, h.hreadyout]
        cases releaseEdge reg <;> simp
    · rw [isSelected_nextState]
      cases selectEdge reg <;> cases releaseEdge reg <;> simp [h.csN]
    · rw [isDriving_nextState]
      cases driveEdge reg <;> cases hs : reg.state <;> simp [h.oe, hs, StateType.isDriving]
    · intro hsel
      rw [isSidRead_nextState hsel]
      rw [isSelected_nextState] at hsel
      cases hedge : selectEdge reg with
      | true => rfl
      | false =>
        simp only [hedge, Bool.false_or, Bool.and_eq_true, Bool.not_eq_true'] at hsel
        simp [hsel.2, h.rw hsel.1]

theorem busSafe_of_isRun {r : ℕ → RegType} {inp : ℕ → Ports} (hr : Sync.IsRun nextReg r inp)
    (h0 : BusSafe (r 0)) (n : ℕ) : BusSafe (r n) :=
  hr.invariant (Q := fun _ => True) (fun _ i h _ => busSafe_nextReg i h) h0 (fun _ => trivial) n

theorem busSafe_run (inp : ℕ → Ports) (n : ℕ) : BusSafe (run inp n) :=
  busSafe_of_isRun (run_isRun inp) busSafe_resetReg n

theorem Reachable.busSafe {reg : RegType} (h : Reachable reg) : BusSafe reg := by
  obtain ⟨inp, n, rfl⟩ := h
  exact busSafe_run inp n

/-! ### How an access is entered and left -/

/-- The only way out of the selected states is back to `st_idle`. -/
theorem state_nextReg_of_selected {reg : RegType} (i : Ports) (h : reg.state.isSelected = true)
    (hn : (nextReg reg i).state.isSelected = false) : (nextReg reg i).state = .stIdle := by
  cases hreset : i.HRESETN with
  | false => rw [nextReg_reset reg hreset]; rfl
  | true =>
    rw [state_nextReg hreset, isSelected_nextState, h] at hn
    simp only [Bool.true_and, Bool.or_eq_false_iff, Bool.not_eq_false'] at hn
    have hrel := hn.2
    simp only [releaseEdge, Bool.or_eq_true, decide_eq_true_eq] at hrel
    rw [state_nextReg hreset]
    rcases hrel with hs | hs <;> rw [nextState, hs]

/-- No edge selects the SID from `st_idle`. -/
theorem not_selected_nextReg_of_idle {reg : RegType} (i : Ports) (h : reg.state = .stIdle) :
    (nextReg reg i).state.isSelected = false := by
  cases hreset : i.HRESETN with
  | false => rw [nextReg_reset reg hreset]; rfl
  | true =>
    rw [state_nextReg hreset, isSelected_nextState]
    simp [selectEdge, h, StateType.isSelected]

/-- Between two selected cycles the direction and the address stay. -/
theorem selected_keeps {reg : RegType} (i : Ports) (h : reg.state.isSelected = true)
    (hn : (nextReg reg i).state.isSelected = true) :
    (nextReg reg i).state.isSidRead = reg.state.isSidRead ∧
      (nextReg reg i).sidAddr = reg.sidAddr := by
  cases hreset : i.HRESETN with
  | false => rw [nextReg_reset reg hreset] at hn; cases hn
  | true =>
    have hidle : reg.state ≠ .stIdle := by
      intro hs
      rw [hs] at h
      cases h
    rw [state_nextReg hreset] at hn ⊢
    exact ⟨isSidRead_nextState hn, sidAddr_nextReg_of_ne hreset hidle⟩

/-! ### What the bus and the pins see -/

/-- The safety of a sequence of register records: each clause is about the bus signals, the pins and
the states that go with them. -/
structure BusSafety (r : ℕ → RegType) : Prop where
  /-- Wait states are asked for during SID accesses and at no other time. -/
  ready : ∀ n, (r n).HREADYOUT = false ↔ (r n).state.isSidAccess = true
  okay : ∀ n, (r n).HRESP = 0b00#2
  /-- The SID is selected from the second state of an access on. -/
  chip_select : ∀ n, (r n).sidCsN = false ↔ (r n).state.isSelected = true
  /-- The bridge drives the pins in the last four states of a write, so never against the SID. -/
  output_enable : ∀ n, (r n).sidDataOe = true ↔ (r n).state.isDriving = true
  drives_only_in_write : ∀ (cell : Bibuf) n k, (sidDataPins cell (r n) k).isSome = true →
    (r n).sidCsN = false ∧ (r n).sidRw = false
  no_contention : ∀ (cell : Bibuf) n k, (r n).sidCsN = false → (r n).sidRw = true →
    sidDataPins cell (r n) k = none
  /-- Direction and address hold still while the SID is selected. -/
  direction : ∀ n, (r n).sidCsN = false →
    ((r n).state.isSidRead = true → (r n).sidRw = true) ∧
      ((r n).state.isSidWrite = true → (r n).sidRw = false)
  stable : ∀ n, (r n).sidCsN = false → (r (n + 1)).sidCsN = false →
    (r (n + 1)).sidRw = (r n).sidRw ∧ (r (n + 1)).sidAddr = (r n).sidAddr
  /-- Two accesses are at least two cycles apart. -/
  gap : ∀ n, (r n).sidCsN = false → (r (n + 1)).sidCsN = true →
    (r (n + 1)).sidDataOe = false ∧ (r (n + 2)).sidCsN = true ∧ (r (n + 2)).sidDataOe = false
  /-- Two of the states are dead. -/
  never_error : ∀ n, (r n).state ≠ .stError ∧ (r n).state ≠ .stReadReg

theorem BusSafe.selected_iff {reg : RegType} (h : BusSafe reg) :
    reg.sidCsN = false ↔ reg.state.isSelected = true := by
  rw [h.csN, Bool.not_eq_false']

theorem BusSafe.not_selected_iff {reg : RegType} (h : BusSafe reg) :
    reg.sidCsN = true ↔ reg.state.isSelected = false := by
  rw [h.csN, Bool.not_eq_true']

theorem BusSafe.oe_of_not_selected {reg : RegType} (h : BusSafe reg)
    (hs : reg.state.isSelected = false) : reg.sidDataOe = false := by
  rw [h.oe]
  cases hd : reg.state.isDriving with
  | false => rfl
  | true =>
    have := (StateType.isSidWrite_of_isDriving hd).1
    rw [hs] at this
    cases this

/-- No wait states: a record in a state that belongs to no SID access is ready. -/
theorem BusSafe.ready_of {reg : RegType} (h : BusSafe reg)
    (hs : reg.state = .stIdle ∨ reg.state = .stWriteReg) : reg.HREADYOUT = true := by
  rw [h.hreadyout]
  rcases hs with hs | hs <;> rw [hs] <;> rfl

/-- A record in any other state is not. -/
theorem BusSafe.not_ready_of {reg : RegType} (h : BusSafe reg) (hidle : reg.state ≠ .stIdle)
    (hwrite : reg.state ≠ .stWriteReg) : reg.HREADYOUT = false := by
  have herr := h.no_error
  have hread := h.no_read_reg
  rw [h.hreadyout]
  cases hs : reg.state <;>
    simp_all [StateType.isSidAccess, StateType.isSidRead, StateType.isSidWrite]

/-- A pin is driven only in the driving states, which belong to the writes. -/
theorem BusSafe.drives {reg : RegType} (h : BusSafe reg) (cell : Bibuf) (k : Fin 8)
    (hk : (sidDataPins cell reg k).isSome = true) : reg.sidCsN = false ∧ reg.sidRw = false := by
  cases hoe : reg.sidDataOe with
  | false =>
    rw [sidDataPins_disabled cell hoe] at hk
    cases hk
  | true =>
    rw [h.oe] at hoe
    obtain ⟨hsel, hread⟩ := StateType.isSidWrite_of_isDriving hoe
    exact ⟨h.selected_iff.mpr hsel, (h.rw hsel).trans hread⟩

/-- **Every run is safe**, whatever the inputs, resets in the middle of accesses included. -/
theorem busSafety_run (inp : ℕ → Ports) : BusSafety (run inp) where
  ready n := by rw [(busSafe_run inp n).hreadyout, Bool.not_eq_false']
  okay n := (busSafe_run inp n).hresp
  chip_select n := (busSafe_run inp n).selected_iff
  output_enable n := by rw [(busSafe_run inp n).oe]
  drives_only_in_write cell n k hk := (busSafe_run inp n).drives cell k hk
  no_contention cell n k _ hrw := by
    cases hpin : sidDataPins cell (run inp n) k with
    | none => rfl
    | some b =>
      have hdrives := (busSafe_run inp n).drives cell k (by rw [hpin]; rfl)
      rw [hdrives.2] at hrw
      cases hrw
  direction n hcs := by
    have hsel := (busSafe_run inp n).selected_iff.mp hcs
    rw [(busSafe_run inp n).rw hsel]
    refine ⟨id, fun hwrite => ?_⟩
    cases hs : (run inp n).state <;> simp_all [StateType.isSidWrite, StateType.isSidRead]
  stable n hcs hcs' := by
    have hsel := (busSafe_run inp n).selected_iff.mp hcs
    have hsel' := (busSafe_run inp (n + 1)).selected_iff.mp hcs'
    obtain ⟨hread, haddr⟩ := selected_keeps (inp n) hsel hsel'
    refine ⟨?_, haddr⟩
    rw [(busSafe_run inp n).rw hsel, (busSafe_run inp (n + 1)).rw hsel']
    exact hread
  gap n hcs hcs' := by
    have hsel := (busSafe_run inp n).selected_iff.mp hcs
    have hsel' := (busSafe_run inp (n + 1)).not_selected_iff.mp hcs'
    have hidle := state_nextReg_of_selected (inp n) hsel hsel'
    have hsel'' := not_selected_nextReg_of_idle (inp (n + 1)) hidle
    exact ⟨(busSafe_run inp (n + 1)).oe_of_not_selected hsel',
      (busSafe_run inp (n + 2)).not_selected_iff.mpr hsel'',
      (busSafe_run inp (n + 2)).oe_of_not_selected hsel''⟩
  never_error n := ⟨(busSafe_run inp n).no_error, (busSafe_run inp n).no_read_reg⟩

end SidBridge
