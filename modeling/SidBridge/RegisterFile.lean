import SidBridge.BusSafety

/-!
# The register file

A register write takes two cycles: `st_idle` latches the address, `st_write_reg` takes the data from the
`HWDATA` of the next cycle.  Seen from outside, `sid_rst_n` and `sid_freq` are a memory of two words that
only such writes change.

* `registerWrites` — the writes of a run, each in its data cycle;
* `registerUpdate_succ` — the data edge of the bridge is the data cycle of a write, and of nothing else;
* `register_succ`, `register_latest` — what a register takes in one cycle, and so what it holds;
* `sidRstN_run`, `sidFreq_run` — each register holds the latest data written to its address;
* `RegisterLaw`, `registerLaw_run` — these laws with the frame around them.
-/

namespace SidBridge

/-- The register write whose data cycle is `d`: address of the cycle before, data of `d`. -/
def registerWrites (inp : ℕ → Ports) : ℕ → Option (BitVec 2 × BitVec 32)
  | 0 => none
  | a + 1 =>
      if registerWrite (run inp a) (inp a) then some ((inp a).haddr32, (inp (a + 1)).HWDATA) else none

section Run

variable {inp : ℕ → Ports} (hrst : ∀ n, (inp n).HRESETN = true)

include hrst

/-- The data edge of a write to `addr` comes one cycle after its address phase, and only then. -/
theorem registerUpdate_succ (a : ℕ) (addr : BitVec 2) :
    registerUpdate (run inp (a + 1)) addr = true ↔
      registerWrite (run inp a) (inp a) = true ∧ (inp a).haddr32 = addr := by
  rw [run_succ, registerUpdate, nextReg_eq _ (hrst a)]
  simp only [Bool.and_eq_true, decide_eq_true_eq, nextState_eq_stWriteReg_iff]
  constructor
  · intro hall
    obtain ⟨hw, haddr⟩ := hall
    simp only [hw, Bool.true_or, if_true, Option.some.injEq] at haddr
    exact ⟨hw, haddr⟩
  · intro hall
    obtain ⟨hw, haddr⟩ := hall
    simp [hw, haddr]

/-- What the data cycle of a write to `addr` is, in terms of the log. -/
theorem registerUpdate_iff (d : ℕ) (addr : BitVec 2) :
    registerUpdate (run inp d) addr = true ↔ registerWrites inp d = some (addr, (inp d).HWDATA) := by
  cases d with
  | zero => simp [registerUpdate, run, Sync.run, resetReg, registerWrites]
  | succ a =>
    rw [registerUpdate_succ hrst, registerWrites]
    cases hw : registerWrite (run inp a) (inp a) <;> simp

theorem registerUpdate_false {k : ℕ} {addr : BitVec 2}
    (h : ∀ d, registerWrites inp k ≠ some (addr, d)) : registerUpdate (run inp k) addr = false := by
  rw [← Bool.not_eq_true, registerUpdate_iff hrst]
  exact h _

omit hrst in
/-- Every entry of the log carries the `HWDATA` of its own cycle. -/
theorem registerWrites_data {d : ℕ} {addr : BitVec 2} {data : BitVec 32}
    (h : registerWrites inp d = some (addr, data)) : data = (inp d).HWDATA := by
  cases d with
  | zero => cases h
  | succ a =>
    simp only [registerWrites] at h
    split at h
    · simp only [Option.some.injEq, Prod.mk.injEq] at h
      exact h.2.symm
    · cases h

/-- **One cycle of a register**: whatever register `f` an edge loads with `g` of the bus data, exactly at
the data edges of writes to `addr`, takes what the log says of this cycle, or stays. -/
theorem register_succ {δ : Type} (f : RegType → δ) (g : BitVec 32 → δ) (addr : BitVec 2)
    (hedge : ∀ reg i, i.HRESETN = true →
      f (nextReg reg i) = if registerUpdate reg addr then g i.HWDATA else f reg) (k : ℕ) :
    f (run inp (k + 1)) =
      ((registerWrites inp k).bind fun w => if w.1 = addr then some (g w.2) else none).getD
        (f (run inp k)) := by
  rw [run_succ, hedge _ _ (hrst k)]
  cases hlog : registerWrites inp k with
  | none =>
    rw [registerUpdate_false hrst (by simp [hlog])]
    rfl
  | some w =>
    obtain ⟨b, data⟩ := w
    obtain rfl := registerWrites_data hlog
    rw [Option.bind_some]
    by_cases hb : b = addr
    · subst hb
      rw [(registerUpdate_iff hrst k b).mpr hlog, if_pos rfl, if_pos rfl]
      rfl
    · rw [registerUpdate_false hrst (by simp [hlog, hb]), if_neg hb]
      rfl

/-- **A register is the latest data written to its address.** -/
theorem register_latest {δ : Type} (f : RegType → δ) (g : BitVec 32 → δ) (addr : BitVec 2)
    (hedge : ∀ reg i, i.HRESETN = true →
      f (nextReg reg i) = if registerUpdate reg addr then g i.HWDATA else f reg) (k : ℕ) :
    f (run inp k) =
      ((Sync.latest (Sync.events (registerWrites inp) k) addr).map g).getD (f resetReg) := by
  induction k with
  | zero =>
    rw [Sync.events_zero, Sync.latest_nil]
    rfl
  | succ k ih =>
    rw [register_succ hrst f g addr hedge, ih]
    cases hlog : registerWrites inp k with
    | none =>
      rw [Sync.events_succ_none hlog]
      rfl
    | some w =>
      obtain ⟨b, data⟩ := w
      rw [Sync.events_succ_some hlog, Sync.latest_append, Option.bind_some]
      by_cases hb : b = addr
      · rw [if_pos hb, if_pos hb]
        rfl
      · rw [if_neg hb, if_neg hb]
        rfl

theorem sidRstN_run (k : ℕ) : (run inp k).sidRstN =
    ((Sync.latest (Sync.events (registerWrites inp) k) 0b00#2).map fun d => d.getLsbD 0).getD false :=
  register_latest hrst (·.sidRstN) (fun d => d.getLsbD 0) 0b00#2
    (fun reg i h => by rw [nextReg_eq reg h]) k

theorem sidFreq_run (k : ℕ) : (run inp k).sidFreq =
    ((Sync.latest (Sync.events (registerWrites inp) k) 0b01#2).map
      fun d => d.extractLsb' 0 8).getD 0b00100011#8 :=
  register_latest hrst (·.sidFreq) (fun d => d.extractLsb' 0 8) 0b01#2
    (fun reg i h => by rw [nextReg_eq reg h]; rfl) k

end Run

/-! ### The frame of a register access -/

/-- The outputs to the SID that a register access must leave alone. -/
def SameSidPort (reg reg' : RegType) : Prop :=
  reg'.sidAddr = reg.sidAddr ∧ reg'.sidDataO = reg.sidDataO ∧ reg'.sidCsN = reg.sidCsN ∧
    reg'.sidRw = reg.sidRw

theorem SameSidPort.trans {a b c : RegType} (h : SameSidPort a b) (h' : SameSidPort b c) :
    SameSidPort a c :=
  ⟨h'.1.trans h.1, h'.2.1.trans h.2.1, h'.2.2.1.trans h.2.2.1, h'.2.2.2.trans h.2.2.2⟩

/-- An edge out of `st_idle` that takes no SID request, or out of `st_write_reg`, leaves the port
alone. -/
theorem sameSidPort_nextReg {reg : RegType} {i : Ports} (h : i.HRESETN = true)
    (hreg : sidRequest reg i = false ∧ reg.state = .stIdle ∨ reg.state = .stWriteReg) :
    SameSidPort reg (nextReg reg i) := by
  rw [nextReg_eq reg h]
  rcases hreg with ⟨hno, hs⟩ | hs
  · simp [SameSidPort, hno, hs, selectEdge, releaseEdge]
  · simp [SameSidPort, hs, sidRequest, selectEdge, releaseEdge]

/-- The state after a register read: `st_idle` again. -/
theorem state_nextReg_of_registerRead {reg : RegType} {i : Ports} (h : i.HRESETN = true)
    (hr : registerRead reg i = true) : (nextReg reg i).state = .stIdle := by
  obtain ⟨hs, hsel, haddr, hwrite⟩ := registerRead_iff.mp hr
  rw [nextReg_eq reg h]
  simp [nextState, hs, registerWrite, sidRequest, haddr, hwrite]

/-- The byte or bit a register read loads. -/
theorem HRDATA_nextReg_of_registerRead {reg : RegType} {i : Ports} (h : i.HRESETN = true)
    (hr : registerRead reg i = true) :
    (nextReg reg i).HRDATA = registerValue reg i.haddr32 := by
  rw [nextReg_eq reg h]
  simp [hr]

/-! ### The law -/

/-- The register file along a run: what it holds, what leaves it alone, what it leaves alone, and what
its reads return. -/
structure RegisterLaw (inp : ℕ → Ports) : Prop where
  rst : ∀ k, (run inp k).sidRstN =
    ((Sync.latest (Sync.events (registerWrites inp) k) 0b00#2).map fun d => d.getLsbD 0).getD false
  freq : ∀ k, (run inp k).sidFreq =
    ((Sync.latest (Sync.events (registerWrites inp) k) 0b01#2).map
      fun d => d.extractLsb' 0 8).getD resetReg.sidFreq
  rst_frame : ∀ k, (∀ d, registerWrites inp k ≠ some (0b00#2, d)) →
    (run inp (k + 1)).sidRstN = (run inp k).sidRstN
  freq_frame : ∀ k, (∀ d, registerWrites inp k ≠ some (0b01#2, d)) →
    (run inp (k + 1)).sidFreq = (run inp k).sidFreq
  write_frame : ∀ a, registerWrite (run inp a) (inp a) = true →
    ∀ k, a < k → k ≤ a + 2 → SameSidPort (run inp a) (run inp k) ∧ (run inp k).HREADYOUT = true
  read_frame : ∀ a, registerRead (run inp a) (inp a) = true →
    SameSidPort (run inp a) (run inp (a + 1)) ∧ (run inp (a + 1)).HREADYOUT = true
  read_rst : ∀ a, registerRead (run inp a) (inp a) = true → (inp a).haddr32 = 0b00#2 →
    (run inp (a + 1)).HRDATA = (BitVec.ofBool (run inp a).sidRstN).setWidth 32
  read_freq : ∀ a, registerRead (run inp a) (inp a) = true → (inp a).haddr32 = 0b01#2 →
    (run inp (a + 1)).HRDATA = (run inp a).sidFreq.setWidth 32
  read_zero : ∀ a, registerRead (run inp a) (inp a) = true →
    (inp a).haddr32 = 0b10#2 ∨ (inp a).haddr32 = 0b11#2 → (run inp (a + 1)).HRDATA = 0

theorem write_frame_run (hrst : ∀ n, (inp n).HRESETN = true) {a : ℕ}
    (hw : registerWrite (run inp a) (inp a) = true) {k : ℕ} (hk : a < k) (hle : k ≤ a + 2) :
    SameSidPort (run inp a) (run inp k) ∧ (run inp k).HREADYOUT = true := by
  have hdata : (run inp (a + 1)).state = .stWriteReg :=
    state_nextReg_of_registerWrite (hrst a) hw
  have hfirst : SameSidPort (run inp a) (run inp (a + 1)) :=
    sameSidPort_nextReg (hrst a)
      (Or.inl ⟨sidRequest_of_registerWrite hw, (registerWrite_iff.mp hw).1⟩)
  rcases Nat.eq_or_lt_of_le hle with rfl | hlt
  · have hsecond : SameSidPort (run inp (a + 1)) (run inp (a + 2)) :=
      sameSidPort_nextReg (hrst (a + 1)) (Or.inr hdata)
    have hidle : (run inp (a + 2)).state = .stIdle :=
      state_nextReg_of_stWriteReg (hrst (a + 1)) hdata
    exact ⟨hfirst.trans hsecond, (busSafe_run inp (a + 2)).ready_of (Or.inl hidle)⟩
  · obtain rfl : k = a + 1 := by omega
    exact ⟨hfirst, (busSafe_run inp (a + 1)).ready_of (Or.inr hdata)⟩

/-- **The register file is linear and framed**, in every run without another reset. -/
theorem registerLaw_run (inp : ℕ → Ports) (hrst : ∀ n, (inp n).HRESETN = true) :
    RegisterLaw inp where
  rst k := sidRstN_run hrst k
  freq k := sidFreq_run hrst k
  rst_frame k h := by
    rw [run_succ, nextReg_eq _ (hrst k), registerUpdate_false hrst h]
    rfl
  freq_frame k h := by
    rw [run_succ, nextReg_eq _ (hrst k), registerUpdate_false hrst h]
    rfl
  write_frame a hw k hk hle := write_frame_run hrst hw hk hle
  read_frame a hr :=
    ⟨sameSidPort_nextReg (hrst a)
        (Or.inl ⟨sidRequest_of_registerRead hr, (registerRead_iff.mp hr).1⟩),
      (busSafe_run inp (a + 1)).ready_of (Or.inl (state_nextReg_of_registerRead (hrst a) hr))⟩
  read_rst a hr haddr := by
    rw [run_succ, HRDATA_nextReg_of_registerRead (hrst a) hr, haddr]
    rfl
  read_freq a hr haddr := by
    rw [run_succ, HRDATA_nextReg_of_registerRead (hrst a) hr, haddr]
    rfl
  read_zero a hr haddr := by
    rw [run_succ, HRDATA_nextReg_of_registerRead (hrst a) hr]
    rcases haddr with haddr | haddr <;> rw [haddr] <;> rfl

/-- Software sets the divider value to seven and reads it back. -/
def freqWriteRead : ℕ → Ports :=
  setFreq 0xF07 fun n => if n = 0 then Ports.transfer 0x4 false else Ports.quiet

/-- The law for that run: the read returns what the write left. -/
theorem registerLaw_freqWriteRead :
    (run freqWriteRead 2).sidFreq = 7#8 ∧ (run freqWriteRead 3).HRDATA = 7#32 := by
  have hlaw := registerLaw_run freqWriteRead (setFreq_no_reset _ fun n => by split <;> rfl)
  have hfreq : (run freqWriteRead 2).sidFreq = 7#8 := hlaw.freq 2
  refine ⟨hfreq, ?_⟩
  rw [hlaw.read_freq 2 rfl rfl, hfreq]
  rfl

end SidBridge
