import SidBridge.ReadData
import SidBridge.RegisterFile

/-!
# What the bridge carries out

A transfer is carried out where its effect shows: `sid_rst_n` or `sid_freq` has the data of a register
write, `HRDATA` the answer to a register read, and the pins of the SID show the beginning of a SID access.

* `Transfer`, `Transfer.Effect` — what a transfer leaves behind;
* `registerAccess`, `executed` — the register access an edge has come to, and what the edge carries out;
* `effect_of_registerAccess`, `effect_of_executed` — the bridge does what it has come to;
* `Reading`, `reading_of_selected` — a SID read that is still under way;
* `Accounted`, `accounted_run` — **and nothing else**: without a transfer the registers and `HRDATA` stay.

Nothing here asks the bus to behave: the inputs are arbitrary.
-/

namespace SidBridge

/-- A transfer, with the data of a write. -/
inductive Transfer where
  | regWrite (addr : BitVec 2) (data : BitVec 32)
  | regRead (addr : BitVec 2)
  | sidWrite (addr : BitVec 5) (byte : BitVec 8)
  | sidRead (addr : BitVec 5)
  deriving DecidableEq, Repr

/-- What a transfer leaves behind, from the registers before an edge to those after it.  A register write
stores its data and leaves the other register, a register read is answered in a ready cycle, and a SID
access pulls `sid_cs_n` low with its address, its direction and the byte of a write. -/
def Transfer.Effect (reg reg' : RegType) : Transfer → Prop
  | .regWrite addr data =>
      reg'.sidRstN = (if addr = 0b00#2 then data.getLsbD 0 else reg.sidRstN) ∧
        reg'.sidFreq = if addr = 0b01#2 then data.extractLsb' 0 8 else reg.sidFreq
  | .regRead addr =>
      reg'.HREADYOUT = true ∧ reg'.HRDATA =
        if addr = 0b00#2 then (BitVec.ofBool reg.sidRstN).setWidth 32
        else if addr = 0b01#2 then reg.sidFreq.setWidth 32
        else 0
  | .sidWrite addr byte =>
      (reg.sidCsN = true ∧ reg'.sidCsN = false) ∧ reg'.sidRw = false ∧ reg'.sidAddr = addr ∧
        reg'.sidDataO = byte
  | .sidRead addr =>
      (reg.sidCsN = true ∧ reg'.sidCsN = false) ∧ reg'.sidRw = true ∧ reg'.sidAddr = addr

instance (reg reg' : RegType) : (t : Transfer) → Decidable (t.Effect reg reg')
  | .regWrite _ _ => inferInstanceAs (Decidable (_ ∧ _))
  | .regRead _ => inferInstanceAs (Decidable (_ ∧ _))
  | .sidWrite _ _ => inferInstanceAs (Decidable (_ ∧ _))
  | .sidRead _ => inferInstanceAs (Decidable (_ ∧ _))

/-- The register access an edge has come to: a write in its data cycle, or a read in the cycle that asks
for it. -/
def registerAccess (reg : RegType) (i : Ports) : Option Transfer :=
  if reg.state = .stWriteReg then reg.regAddr.map fun addr => .regWrite addr i.HWDATA
  else if registerRead reg i then some (.regRead i.haddr32)
  else none

/-- **What an edge carries out**: a SID access if the pins show the beginning of one, or the register access
it has come to, if the registers show its effect. -/
def executed (reg : RegType) (i : Ports) : Option Transfer :=
  let reg' := nextReg reg i
  if i.HRESETN = false then none
  else if reg.sidCsN && !reg'.sidCsN then
    some (if reg'.sidRw then .sidRead reg'.sidAddr else .sidWrite reg'.sidAddr reg'.sidDataO)
  else (registerAccess reg i).filter fun t => t.Effect reg reg'

/-! ### The effect of every edge -/

section Edge

variable {reg : RegType} {i : Ports}

/-- The data cycle of a register write. -/
theorem registerAccess_of_registerUpdate {addr : BitVec 2} (h : registerUpdate reg addr = true) :
    registerAccess reg i = some (.regWrite addr i.HWDATA) := by
  obtain ⟨hs, haddr⟩ := registerUpdate_eq_true_iff.mp h
  rw [registerAccess, if_pos hs, haddr]
  rfl

/-- The cycle that asks for a register read. -/
theorem registerAccess_of_registerRead (h : registerRead reg i = true) :
    registerAccess reg i = some (.regRead i.haddr32) := by
  have hs : reg.state ≠ .stWriteReg := by simp [(registerRead_iff.mp h).1]
  rw [registerAccess, if_neg hs, if_pos h]

/-- There are no other register accesses. -/
theorem registerAccess_cases {t : Transfer} (h : registerAccess reg i = some t) :
    (∃ addr, registerUpdate reg addr = true ∧ t = .regWrite addr i.HWDATA) ∨
      registerRead reg i = true ∧ t = .regRead i.haddr32 := by
  unfold registerAccess at h
  split at h
  · rename_i hs
    obtain ⟨addr, haddr, rfl⟩ := Option.map_eq_some_iff.mp h
    exact Or.inl ⟨addr, registerUpdate_eq_true_iff.mpr ⟨hs, haddr⟩, rfl⟩
  · split at h
    · rename_i hread
      exact Or.inr ⟨hread, (Option.some.inj h).symm⟩
    · cases h

/-- An edge that has come to a register access does not select the SID. -/
theorem selectEdge_of_registerAccess {t : Transfer} (h : registerAccess reg i = some t) :
    selectEdge reg = false := by
  rcases registerAccess_cases h with ⟨addr, hupdate, -⟩ | ⟨hread, -⟩
  · simp [selectEdge, (registerUpdate_eq_true_iff.mp hupdate).1]
  · simp [selectEdge, (registerRead_iff.mp hread).1]

variable (hrst : i.HRESETN = true)

include hrst

/-- **The bridge does what it has come to**: a register write stores, and a register read answers. -/
theorem effect_of_registerAccess {t : Transfer} (h : registerAccess reg i = some t) :
    t.Effect reg (nextReg reg i) := by
  rcases registerAccess_cases h with ⟨addr, hupdate, rfl⟩ | ⟨hread, rfl⟩
  · obtain ⟨hs, haddr⟩ := registerUpdate_eq_true_iff.mp hupdate
    rw [nextReg_eq reg hrst]
    simp [Transfer.Effect, registerUpdate, hs, haddr, Ports.hwdata70]
  · constructor
    · rw [nextReg_eq reg hrst]
      simp [sidRequest_of_registerRead hread, hread]
    · rw [HRDATA_nextReg_of_registerRead hrst hread]
      unfold registerValue
      split <;> simp_all

/-- The SID is selected at the select edge and at no other. -/
theorem selected_by_edge (hno : selectEdge reg = false) :
    (reg.sidCsN && !(nextReg reg i).sidCsN) = false := by
  rw [nextReg_eq reg hrst]
  cases releaseEdge reg <;> simp [hno]

/-- Everywhere else an edge carries out the register access it has come to. -/
theorem executed_of_not_selectEdge (hno : selectEdge reg = false) :
    executed reg i = registerAccess reg i := by
  have hcs := selected_by_edge hrst hno
  simp only [executed, hrst, hcs, Bool.true_eq_false, Bool.false_eq_true, if_false]
  cases ht : registerAccess reg i with
  | none => rfl
  | some t => exact Option.filter_some_pos (decide_eq_true (effect_of_registerAccess hrst ht))

theorem executed_of_registerAccess {t : Transfer} (h : registerAccess reg i = some t) :
    executed reg i = some t := by
  rw [executed_of_not_selectEdge hrst (selectEdge_of_registerAccess h), h]

/-- The select edge carries out the SID access of its chain. -/
theorem executed_of_selectEdge (hcs : reg.sidCsN = true) (h : selectEdge reg = true) :
    executed reg i = some (if reg.state.isSidRead then .sidRead reg.sidAddr
      else .sidWrite reg.sidAddr i.hwdata70) := by
  have hne : sidRequest reg i = false := by
    cases hs : reg.state <;> simp_all [selectEdge, sidRequest]
  simp only [executed, hrst, hcs, nextReg_eq reg hrst, h, hne, if_true, Bool.not_false,
    Bool.true_and, Bool.true_eq_false, Bool.false_eq_true, if_false]
  cases hs : reg.state <;> simp_all [selectEdge, StateType.isSidRead]

end Edge

/-- **What is carried out has its effect.** -/
theorem effect_of_executed {reg : RegType} {i : Ports} {t : Transfer} (h : executed reg i = some t) :
    t.Effect reg (nextReg reg i) := by
  simp only [executed] at h
  split at h
  · cases h
  · split at h
    · rename_i hcs
      rw [Bool.and_eq_true, Bool.not_eq_true'] at hcs
      rw [← Option.some.inj h]
      cases hrw : (nextReg reg i).sidRw with
      | true => exact ⟨hcs, hrw, rfl⟩
      | false => exact ⟨hcs, hrw, rfl, rfl⟩
    · exact of_decide_eq_true (Option.filter_eq_some_iff.mp h).2

/-! ### Every change along a run -/

/-- The SID read carried out at the edge of cycle `m` still shows on the pins in cycle `n`. -/
structure Reading (inp : ℕ → Ports) (addr : BitVec 5) (m n : ℕ) : Prop where
  lt : m < n
  carriedOut : executed (run inp m) (inp m) = some (.sidRead addr)
  pins : ∀ k, m < k → k ≤ n →
    (run inp k).sidCsN = false ∧ (run inp k).sidRw = true ∧ (run inp k).sidAddr = addr

/-- **While the SID is selected for a read**, that read is under way. -/
theorem reading_of_selected {inp : ℕ → Ports} {n : ℕ} (hcs : (run inp n).sidCsN = false)
    (hrw : (run inp n).sidRw = true) : ∃ m, Reading inp (run inp n).sidAddr m n := by
  induction n with
  | zero => cases hcs
  | succ n ih =>
    cases hbefore : (run inp n).sidCsN with
    | true =>
      -- the pins show its beginning at this edge
      have hrst : (inp n).HRESETN = true := by
        by_contra hreset
        rw [run_succ, nextReg_reset _ (by simpa using hreset)] at hcs
        cases hcs
      refine ⟨n, Nat.lt_succ_self n, ?_, fun k hk hle => ?_⟩
      · simp only [executed, ← run_succ, hrst, hbefore, hcs, hrw, Bool.true_eq_false, if_false,
          Bool.not_false, Bool.and_self, if_true]
      · obtain rfl : k = n + 1 := by omega
        exact ⟨hcs, hrw, rfl⟩
    | false =>
      have hsel := (busSafe_run inp n).selected_iff.mp hbefore
      have hsel' := (busSafe_run inp (n + 1)).selected_iff.mp hcs
      obtain ⟨hread, haddr⟩ := selected_keeps (inp n) hsel hsel'
      rw [← run_succ] at hread haddr
      have hrw' : (run inp n).sidRw = true := by
        rw [(busSafe_run inp n).rw hsel, ← hread, ← (busSafe_run inp (n + 1)).rw hsel', hrw]
      obtain ⟨m, hlt, hexec, hpins⟩ := ih hbefore hrw'
      rw [← haddr] at hexec hpins
      refine ⟨m, Nat.lt_succ_of_lt hlt, hexec, fun k hk hle => ?_⟩
      rcases Nat.eq_or_lt_of_le hle with rfl | hlt'
      · exact ⟨hcs, hrw, rfl⟩
      · exact hpins k hk (Nat.lt_succ_iff.mp hlt')

/-- **Every change has its transfer**, at the edge of cycle `n`.  What is carried out has its effect; the
register access the bridge has come to is carried out; the two registers change by register writes only,
and `HRDATA` by register reads and by the byte of a SID read that is under way. -/
structure Accounted (inp : ℕ → Ports) (n : ℕ) : Prop where
  effect : ∀ t, executed (run inp n) (inp n) = some t → t.Effect (run inp n) (run inp (n + 1))
  registers : ∀ t, registerAccess (run inp n) (inp n) = some t →
    executed (run inp n) (inp n) = some t
  sidRstN : (run inp (n + 1)).sidRstN ≠ (run inp n).sidRstN →
    ∃ data, executed (run inp n) (inp n) = some (.regWrite 0b00#2 data)
  sidFreq : (run inp (n + 1)).sidFreq ≠ (run inp n).sidFreq →
    ∃ data, executed (run inp n) (inp n) = some (.regWrite 0b01#2 data)
  HRDATA : (run inp (n + 1)).HRDATA ≠ (run inp n).HRDATA →
    (∃ addr, executed (run inp n) (inp n) = some (.regRead addr)) ∨
      ∃ addr m, Reading inp addr m n ∧
        (run inp (n + 1)).HRDATA = (inp n).sidDataI.setWidth 32

/-- **Nothing changes without a transfer**, in every run and at every edge without reset. -/
theorem accounted_run {inp : ℕ → Ports} {n : ℕ} (hrst : (inp n).HRESETN = true) : Accounted inp n where
  effect _ ht := effect_of_executed ht
  registers _ ht := executed_of_registerAccess hrst ht
  sidRstN hne := by
    refine ⟨(inp n).HWDATA, executed_of_registerAccess hrst (registerAccess_of_registerUpdate ?_)⟩
    by_contra hno
    rw [run_succ, nextReg_eq _ hrst] at hne
    exact hne (if_neg hno)
  sidFreq hne := by
    refine ⟨(inp n).HWDATA, executed_of_registerAccess hrst (registerAccess_of_registerUpdate ?_)⟩
    by_contra hno
    rw [run_succ, nextReg_eq _ hrst] at hne
    exact hne (if_neg hno)
  HRDATA hne := by
    cases hread : registerRead (run inp n) (inp n) with
    | true =>
      exact Or.inl ⟨_, executed_of_registerAccess hrst (registerAccess_of_registerRead hread)⟩
    | false =>
      right
      have hcapture : readCapture (run inp n) = true := by
        by_contra hno
        have hload : loadsHRDATA (run inp n) (inp n) = false := by
          rw [loadsHRDATA, hread, Bool.false_or, ← Bool.not_eq_true]
          exact hno
        exact hne (HRDATA_nextReg_of_not_loads hrst hload)
      -- a capture is a cycle in which the SID is selected for a read
      have hs := (readCapture_eq_true_iff.mp hcapture).1
      have hsel : (run inp n).state.isSelected = true := by rw [hs]; rfl
      have hrw : (run inp n).sidRw = true := by
        rw [(busSafe_run inp n).rw hsel, hs]
        rfl
      obtain ⟨m, hreading⟩ := reading_of_selected ((busSafe_run inp n).selected_iff.mpr hsel) hrw
      exact ⟨_, m, hreading, HRDATA_nextReg_of_readCapture hrst hcapture⟩

end SidBridge
