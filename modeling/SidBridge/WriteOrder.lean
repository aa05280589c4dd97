import SidBridge.Access

/-!
# SID writes arrive in order

The SID takes a byte at the falling edge of `sid_clk`.  Between the address phase of a write and that edge
the byte lives first on `HWDATA`, then in `sid_data_o`; there is never more than one on its way.

* `writeRequests`, `writeStrobes` — what the bus asks for, and what the SID is handed, along a run;
* `pendingWrite`, `pendingWrite_step` — the write on its way, and what one edge does to it;
* `HeldStrobe`, `heldStrobe_of_writeStrobe` — how long the pins hold still around a strobe;
* `sidWrites_in_order` — **the strobes are the requests, in order**, less the one on its way.
-/

namespace SidBridge

/-- An address and the levels of the eight data pins. -/
abbrev PinWrite := BitVec 5 × (Fin 8 → Option Bool)

/-- An address phase of a SID write is taken. -/
def writeRequest (reg : RegType) (i : Ports) : Bool := sidRequest reg i && i.HWRITE

/-- The write requested in cycle `a`: its address, and the byte of its data phase, which starts in the
next cycle. -/
def writeRequests (inp : ℕ → Ports) (a : ℕ) : Option PinWrite :=
  if writeRequest (run inp a) (inp a) then
    some ((inp a).haddr62, pinsOfByte (inp (a + 1)).hwdata70)
  else none

/-- `sid_clk` falls between two cycles, and the SID is selected for a write in the first of them. -/
def writeStrobe (reg reg' : RegType) : Bool := selectedFall reg reg' && !reg.sidRw

theorem writeStrobe_iff {reg reg' : RegType} : writeStrobe reg reg' = true ↔
    reg.sidClk = true ∧ reg'.sidClk = false ∧ reg.sidCsN = false ∧ reg.sidRw = false := by
  simp [writeStrobe, selectedFall, and_assoc]

/-- What the SID is handed at the end of cycle `k`. -/
def writeStrobes (cell : Bibuf) (inp : ℕ → Ports) (k : ℕ) : Option PinWrite :=
  if writeStrobe (run inp k) (run inp (k + 1)) then
    some ((run inp k).sidAddr, sidDataPins cell (run inp k))
  else none

/-- The write on its way: requested, and not yet strobed. -/
def pendingWrite (reg : RegType) (i : Ports) : List PinWrite :=
  match reg.state with
  | .stWriteSidSt1 => [(reg.sidAddr, pinsOfByte i.hwdata70)]
  | .stWriteSidSt2 => [(reg.sidAddr, pinsOfByte reg.sidDataO)]
  | .stWriteSidSt3 => if reg.sidClk then [(reg.sidAddr, pinsOfByte reg.sidDataO)] else []
  | _ => []

/-- At most one write is on its way, and only during a write. -/
theorem pendingWrite_length_le_one (reg : RegType) (i : Ports) :
    (pendingWrite reg i).length ≤ 1 ∧
      (pendingWrite reg i ≠ [] → reg.state.isSidWrite = true) := by
  cases hs : reg.state <;> cases hc : reg.sidClk <;> simp [pendingWrite, hs, hc, StateType.isSidWrite]

/-- The master holds `HWDATA` from the cycle after the address phase of a SID write for as long as the
bridge is not ready. -/
def HoldsWriteData (inp : ℕ → Ports) : Prop :=
  ∀ a, writeRequest (run inp a) (inp a) = true → ∀ k, a < k →
    (∀ j, a < j → j ≤ k → (run inp j).HREADYOUT = false) → (inp k).HWDATA = (inp (a + 1)).HWDATA

section Order

variable {inp : ℕ → Ports} (hrst : ∀ n, (inp n).HRESETN = true)

include hrst

/-- While a write waits to select, the master keeps its byte on `HWDATA` into the next cycle, unless the
access moves on. -/
theorem hwdata70_succ (hhold : HoldsWriteData inp) {n : ℕ}
    (hs : (run inp n).state = .stWriteSidSt1) (hs' : (run inp (n + 1)).state = .stWriteSidSt1) :
    (inp (n + 1)).hwdata70 = (inp n).hwdata70 := by
  obtain ⟨a, ha, hreq, hdir, hall⟩ := access_origin hrst (n := n) (by rw [hs]; rfl)
  have hwrite : writeRequest (run inp a) (inp a) = true := by
    rw [writeRequest, hreq, ← hdir, hs]
    rfl
  have hbusy : ∀ j, a < j → j ≤ n + 1 → (run inp j).HREADYOUT = false := by
    intro j hj hle
    rw [(busSafe_run inp j).hreadyout, Bool.not_eq_false']
    rcases Nat.eq_or_lt_of_le hle with rfl | hlt
    · rw [hs']
      rfl
    · exact hall j hj (by omega)
  have hnow := hhold a hwrite n ha fun j hj hle => hbusy j hj (by omega)
  have hnext := hhold a hwrite (n + 1) (by omega) hbusy
  rw [Ports.hwdata70, Ports.hwdata70, hnext, hnow]

/-- The phase of `sid_clk` in every state, when the divider value outlasts the hold states. -/
theorem inPhase_of_freq
    (hfreq : ∀ n, (run inp n).state.isSidAccess = true → 3 ≤ (run inp n).sidFreq.toNat) (n : ℕ) :
    Sync.InPhase 2 (strober (run inp n)) := by
  apply Sync.inPhase_run (isRun_strober (run_isRun inp) hrst) rfl
  intro m hbusy
  apply hfreq m
  rw [← Bool.not_eq_false, ← StateType.stage_eq_idle_iff]
  exact hbusy

omit hrst in
/-- A low cycle, a cycle that is not selected, or one that is selected for a read, strobes nothing. -/
theorem writeStrobes_none (cell : Bibuf) {n : ℕ}
    (h : (run inp n).sidClk = false ∨ (run inp n).state.isSelected = false ∨
      (run inp n).state.isSidRead = true) : writeStrobes cell inp n = none := by
  have hsafe := busSafe_run inp n
  have hno : writeStrobe (run inp n) (run inp (n + 1)) = false := by
    rw [← Bool.not_eq_true, writeStrobe_iff]
    intro hall
    obtain ⟨hclk', _, hcs, hrw⟩ := hall
    have hsel' := hsafe.selected_iff.mp hcs
    rcases h with hclk | hsel | hread
    · rw [hclk] at hclk'
      cases hclk'
    · rw [hsel] at hsel'
      cases hsel'
    · rw [hsafe.rw hsel', hread] at hrw
      cases hrw
  rw [writeStrobes, hno]
  rfl

omit hrst in
/-- Requests are taken in `st_idle` only. -/
theorem writeRequests_none {n : ℕ} (h : (run inp n).state ≠ .stIdle) : writeRequests inp n = none := by
  simp [writeRequests, writeRequest, sidRequest, h]

/-- An edge out of `st_idle` puts on its way what it accepts. -/
theorem pendingWrite_of_idle {n : ℕ} (hs : (run inp n).state = .stIdle) :
    pendingWrite (run inp (n + 1)) (inp (n + 1)) = (writeRequests inp n).toList := by
  rw [run_succ, nextReg_eq _ (hrst n), pendingWrite, writeRequests, writeRequest]
  simp only [nextState, hs]
  by_cases hreq : sidRequest (run inp n) (inp n) = true
  · have hno : registerWrite (run inp n) (inp n) = false := by
      simp [registerWrite, (sidRequest_iff.mp hreq).2.2]
    by_cases hwrite : (inp n).HWRITE = true <;> simp [hreq, hno, hwrite]
  · by_cases hw : registerWrite (run inp n) (inp n) = true <;> simp [hreq, hw]

/-- Waiting to select, the write keeps its address, and its byte is on `HWDATA` or just latched. -/
theorem pendingWrite_of_st1 (hhold : HoldsWriteData inp) {n : ℕ}
    (hs : (run inp n).state = .stWriteSidSt1) :
    pendingWrite (run inp (n + 1)) (inp (n + 1)) = pendingWrite (run inp n) (inp n) := by
  have hidle : (run inp n).state ≠ .stIdle := by simp [hs]
  have hstate : (run inp (n + 1)).state = nextState (run inp n) (inp n) := state_nextReg (hrst n)
  have haddr : (run inp (n + 1)).sidAddr = (run inp n).sidAddr :=
    sidAddr_nextReg_of_ne (hrst n) hidle
  simp only [nextState, hs] at hstate
  cases hclk : (run inp n).sidClk with
  | true =>
    rw [hclk, if_pos rfl] at hstate
    simp only [pendingWrite, hs, hstate, haddr, hwdata70_succ hrst hhold hs hstate]
  | false =>
    have hdata : (run inp (n + 1)).sidDataO = (inp n).hwdata70 := by
      rw [run_succ, nextReg_eq _ (hrst n)]
      exact if_pos hs
    rw [hclk, if_neg (by simp)] at hstate
    simp only [pendingWrite, hs, hstate, haddr, hdata]

/-- From then on an edge keeps the address and the latched byte. -/
theorem latched_keeps {n : ℕ}
    (hs : (run inp n).state = .stWriteSidSt2 ∨ (run inp n).state = .stWriteSidSt3) :
    (run inp (n + 1)).sidAddr = (run inp n).sidAddr ∧
      (run inp (n + 1)).sidDataO = (run inp n).sidDataO := by
  have hidle : (run inp n).state ≠ .stIdle := by
    rcases hs with hs | hs <;> simp [hs]
  have hfirst : (run inp n).state ≠ .stWriteSidSt1 := by
    rcases hs with hs | hs <;> simp [hs]
  exact ⟨sidAddr_nextReg_of_ne (hrst n) hidle, sidDataO_nextReg_of_ne (hrst n) hfirst⟩

/-- Waiting for the rise, the write keeps its address and its latched byte; the rise is followed by
another high cycle. -/
theorem pendingWrite_of_st2
    (hfreq : ∀ n, (run inp n).state.isSidAccess = true → 3 ≤ (run inp n).sidFreq.toNat) {n : ℕ}
    (hs : (run inp n).state = .stWriteSidSt2) :
    pendingWrite (run inp (n + 1)) (inp (n + 1)) = pendingWrite (run inp n) (inp n) ∧
      ((run inp n).sidClk = true → (run inp (n + 1)).sidClk = true) := by
  have hhigh : (run inp n).sidClk = true → (run inp (n + 1)).sidClk = true := by
    intro hclk
    have hphase := inPhase_of_freq hrst hfreq n
    simp only [Sync.InPhase, strober, hs, StateType.stage] at hphase
    have hlim := hfreq n (by rw [hs]; rfl)
    rw [run_succ, sidClk_nextReg_of_lt (hrst n) (by rw [hphase hclk]; omega), hclk]
  have hstate : (run inp (n + 1)).state = nextState (run inp n) (inp n) := state_nextReg (hrst n)
  obtain ⟨haddr, hdata⟩ := latched_keeps hrst (Or.inl hs)
  refine ⟨?_, hhigh⟩
  simp only [nextState, hs] at hstate
  cases hclk : (run inp n).sidClk with
  | true =>
    rw [hclk, if_pos rfl] at hstate
    simp only [pendingWrite, hs, hstate, haddr, hdata, hhigh hclk, if_true]
  | false =>
    rw [hclk, if_neg (by simp)] at hstate
    simp only [pendingWrite, hs, hstate, haddr, hdata]

/-- Waiting for the fall in a high cycle, the write is handed over at the fall, or keeps waiting. -/
theorem pendingWrite_of_st3 (cell : Bibuf) {n : ℕ} (hs : (run inp n).state = .stWriteSidSt3) :
    pendingWrite (run inp n) (inp n) =
      (writeStrobes cell inp n).toList ++ pendingWrite (run inp (n + 1)) (inp (n + 1)) := by
  have hsafe := busSafe_run inp n
  have hsel : (run inp n).state.isSelected = true := by rw [hs]; rfl
  have hcs := hsafe.selected_iff.mpr hsel
  have hrw : (run inp n).sidRw = false := by rw [hsafe.rw hsel, hs]; rfl
  have hoe : (run inp n).sidDataOe = true := by rw [hsafe.oe, hs]; rfl
  have hstate : (run inp (n + 1)).state = nextState (run inp n) (inp n) := state_nextReg (hrst n)
  obtain ⟨haddr, hdata⟩ := latched_keeps hrst (Or.inr hs)
  simp only [nextState, hs] at hstate
  cases hclk : (run inp n).sidClk with
  | true =>
    rw [hclk, if_pos rfl] at hstate
    cases hclk' : (run inp (n + 1)).sidClk <;>
      simp [pendingWrite, writeStrobes, writeStrobe, selectedFall, hs, hstate, haddr, hdata, hclk, hclk',
        hcs, hrw, sidDataPins_enabled cell hoe]
  | false =>
    rw [hclk, if_neg (by simp)] at hstate
    simp [pendingWrite, hs, hstate, hclk, writeStrobes_none cell (Or.inl hclk)]

/-- **One edge of the write path**: what was on its way or is accepted is strobed or on its way. -/
theorem pendingWrite_step (cell : Bibuf) (hhold : HoldsWriteData inp)
    (hfreq : ∀ n, (run inp n).state.isSidAccess = true → 3 ≤ (run inp n).sidFreq.toNat) (n : ℕ) :
    pendingWrite (run inp n) (inp n) ++ (writeRequests inp n).toList =
      (writeStrobes cell inp n).toList ++ pendingWrite (run inp (n + 1)) (inp (n + 1)) := by
  by_cases hidle : (run inp n).state = .stIdle
  · rw [pendingWrite_of_idle hrst hidle, writeStrobes_none cell (by rw [hidle]; exact Or.inr (Or.inl rfl))]
    simp [pendingWrite, hidle]
  rw [writeRequests_none hidle, Option.toList_none, List.append_nil]
  by_cases h1 : (run inp n).state = .stWriteSidSt1
  · rw [pendingWrite_of_st1 hrst hhold h1,
      writeStrobes_none cell (by rw [h1]; exact Or.inr (Or.inl rfl))]
    rfl
  by_cases h2 : (run inp n).state = .stWriteSidSt2
  · obtain ⟨hkeep, hhigh⟩ := pendingWrite_of_st2 hrst hfreq h2
    have hno : writeStrobes cell inp n = none := by
      cases hclk : (run inp n).sidClk with
      | false => exact writeStrobes_none cell (Or.inl hclk)
      | true => simp [writeStrobes, writeStrobe, selectedFall, hhigh hclk]
    rw [hkeep, hno]
    rfl
  by_cases h3 : (run inp n).state = .stWriteSidSt3
  · exact pendingWrite_of_st3 hrst cell h3
  -- the hold states of a write see a low clock; no other state selects for a write
  have hno : writeStrobes cell inp n = none := by
    apply writeStrobes_none
    have hphase := inPhase_of_freq hrst hfreq n
    cases hs : (run inp n).state <;>
      simp_all [Sync.InPhase, strober, StateType.stage, StateType.isSelected, StateType.isSidRead]
  have hempty : pendingWrite (run inp n) (inp n) = [] ∧
      pendingWrite (run inp (n + 1)) (inp (n + 1)) = [] := by
    rw [run_succ, nextReg_eq _ (hrst n)]
    cases hs : (run inp n).state <;> cases hclk : (run inp n).sidClk <;>
      simp_all [pendingWrite, nextState]
  rw [hempty.1, hempty.2, hno]
  rfl

end Order

/-! ### The pins around a strobe -/

/-- The high phase from `up` to `down` that ends in a strobe: the SID is selected for a write, at one
address, throughout it and for four more cycles, and one byte is driven from its second cycle on. -/
structure HeldStrobe (cell : Bibuf) (r : ℕ → RegType) (up down : ℕ) : Prop
    extends HighPhase r up down where
  selected : ∀ k, up ≤ k → k ≤ down + 4 →
    (r k).sidCsN = false ∧ (r k).sidRw = false ∧ (r k).sidAddr = (r down).sidAddr
  driven : ∀ k, up < k → k ≤ down + 4 →
    (r k).sidDataOe = true ∧ sidDataPins cell (r k) = sidDataPins cell (r down)

section Held

variable {inp : ℕ → Ports} (hrst : ∀ n, (inp n).HRESETN = true)

include hrst

/-- Once the SID is selected, the byte of an access stays. -/
theorem access_data {i : Ports} {a F sel rise : ℕ} (h : Course (run inp) i a F sel rise) (k : ℕ)
    (hk : sel < k) (hle : k ≤ rise + F + 4) :
    (run inp (a + k)).sidDataO = (run inp (a + (sel + 1))).sidDataO := by
  refine Sync.frame_run (f := fun j => (run inp (a + j)).sidDataO) hk fun j hj hlt => ?_
  have hcs := (h.csN j (by omega)).mpr ⟨hj, by omega⟩
  have hsel := (busSafe_run inp (a + j)).selected_iff.mp hcs
  have hne : (run inp (a + j)).state ≠ .stWriteSidSt1 := by
    intro hs
    rw [hs] at hsel
    cases hsel
  rw [← Nat.add_assoc, run_succ, sidDataO_nextReg_of_ne (hrst _) hne]

/-- A strobe ends the high phase of the access it lies in. -/
theorem heldStrobe_of_writeStrobe (cell : Bibuf) {n : ℕ}
    (hfreq : ∀ n, (run inp n).state.isSidAccess = true → 3 ≤ (run inp n).sidFreq.toNat)
    (hstrobe : writeStrobe (run inp n) (run inp (n + 1)) = true) :
    ∃ up, up < n ∧ HeldStrobe cell (run inp) up n := by
  have hfall : selectedFall (run inp n) (run inp (n + 1)) = true := (Bool.and_eq_true_iff.mp hstrobe).1
  obtain ⟨-, -, hcs, hrw⟩ := writeStrobe_iff.mp hstrobe
  have hsel := (busSafe_run inp n).selected_iff.mp hcs
  have hbusy := StateType.isSidAccess_of_isSelected hsel
  obtain ⟨a, k, sel, rise, rfl, hk, hlt, -, -, hdir, h⟩ := course_of_busy hrst hbusy
  have hF := hfreq _ hbusy
  have hwrite : (inp a).HWRITE = true := by
    rw [← hdir]
    apply StateType.isSidWrite_of_isSelected hsel
    rw [← (busSafe_run inp (a + k)).rw hsel, hrw]
  revert hlt h hF
  generalize (run inp (a + k)).sidFreq.toNat = F
  intro hlt h hF
  have hrise := h.sel_lt_rise
  obtain rfl := (h.selectedFall_iff hF (by omega)).mp hfall
  refine ⟨a + rise, by omega, h.highPhase, ?_, ?_⟩
  · intro j hj hle
    obtain ⟨j, rfl⟩ := Nat.exists_eq_add_of_le (show a ≤ j by omega)
    refine ⟨(h.csN j (by omega)).mpr (by omega), ?_, ?_⟩
    · rw [h.rw j (by omega) (by omega), hwrite]
      rfl
    · rw [h.addr j (by omega) (by omega), h.addr (rise + F) (by omega) (by omega)]
  · intro j hj hle
    obtain ⟨j, rfl⟩ := Nat.exists_eq_add_of_le (show a ≤ j by omega)
    have hoe := (h.oe j (by omega)).mpr ⟨hwrite, by omega, by omega⟩
    have hoe' := (h.oe (rise + F) (by omega)).mpr ⟨hwrite, by omega, by omega⟩
    refine ⟨hoe, ?_⟩
    rw [sidDataPins_enabled cell hoe, sidDataPins_enabled cell hoe',
      access_data hrst h j (by omega) (by omega), access_data hrst h (rise + F) (by omega) (by omega)]

end Held

/-- **SID writes reach the SID in order, with their address and byte**, if the divider value outlasts the
hold states while an access is in progress.  All requests but the last are strobed, and the last one too
once no write is in progress; around every strobe the pins hold still. -/
theorem sidWrites_in_order (cell : Bibuf) (inp : ℕ → Ports) (hrst : ∀ n, (inp n).HRESETN = true)
    (hfreq : ∀ n, (run inp n).state.isSidAccess = true → 3 ≤ (run inp n).sidFreq.toNat)
    (hhold : HoldsWriteData inp) :
    (∀ n, ∃ p, Sync.events (writeRequests inp) n = Sync.events (writeStrobes cell inp) n ++ p ∧
      p.length ≤ 1 ∧ (p ≠ [] → (run inp n).state.isSidWrite = true)) ∧
    ∀ n, writeStrobe (run inp n) (run inp (n + 1)) = true →
      ∃ up, up < n ∧ HeldStrobe cell (run inp) up n := by
  refine ⟨fun n => ?_, fun n hstrobe => heldStrobe_of_writeStrobe hrst cell hfreq hstrobe⟩
  refine ⟨pendingWrite (run inp n) (inp n), ?_, pendingWrite_length_le_one _ _⟩
  exact Sync.events_eq_append_pending (fun n => pendingWrite (run inp n) (inp n)) rfl
    (pendingWrite_step hrst cell hhold hfreq) n

/-- Software sets the divider value to three, and then two registers of the SID.  The second address phase
is there while the first write is in progress, up to cycle 12. -/
def twoWrites : ℕ → Ports :=
  setFreq 3 fun n =>
    if n = 0 then Ports.transfer 0x4060 true
    else if n ≤ 10 then { Ports.transfer 0x4010 true with HWDATA := 0x70F }
    else { Ports.quiet with HWDATA := 0x11 }

/-- In that run the SID has its two strobes by cycle 28, in the order of the writes. -/
theorem sidWrites_in_order_twoWrites : Sync.events (writeStrobes bibuf twoWrites) 28 =
    [(0x18#5, pinsOfByte 0x0F#8), (0x04#5, pinsOfByte 0x11#8)] := by
  have hrst : ∀ n, (twoWrites n).HRESETN = true :=
    setFreq_no_reset 3 fun n => by split <;> [rfl; split <;> rfl]
  have hlate : ∀ n, 13 ≤ n → twoWrites n = { Ports.quiet with HWDATA := 0x11 } := by
    intro n hn
    obtain ⟨k, rfl⟩ := Nat.exists_eq_add_of_le' (show 2 ≤ n by omega)
    show (if k = 0 then _ else _) = _
    rw [if_neg (by omega), if_neg (by omega)]
  have honly : ∀ a, sidRequest (run twoWrites a) (twoWrites a) = true → a = 2 ∨ a = 12 := by
    intro a hreq
    have hshort : ∀ k, k < 13 → sidRequest (run twoWrites k) (twoWrites k) = true →
        k = 2 ∨ k = 12 := by decide
    refine hshort a (Nat.lt_of_not_le fun hge => ?_) hreq
    have hsel := (sidRequest_iff.mp hreq).2.1
    rw [hlate a hge] at hsel
    cases hsel
  have hfreq : ∀ n, (run twoWrites n).state.isSidAccess = true →
      3 ≤ (run twoWrites n).sidFreq.toNat := by
    intro n hbusy
    obtain ⟨a, -, -, -, -, -, -, hreq, hsame, -, -⟩ := course_of_busy hrst hbusy
    rw [hsame]
    obtain rfl | rfl := honly a hreq
    · decide
    · decide
  have hhold : HoldsWriteData twoWrites := by
    intro a hreq k hk hbusy
    obtain rfl | rfl := honly a (Bool.and_eq_true_iff.mp hreq).1
    · -- the bridge is ready in cycle 12
      have hshort : ∀ j, j < 12 → 2 < j → (twoWrites j).HWDATA = (twoWrites 3).HWDATA := by decide
      refine hshort k (Nat.lt_of_not_le fun hge => ?_) hk
      have hready := hbusy 12 (by omega) hge
      exact absurd hready (by decide)
    · rw [hlate k hk]
      rfl
  obtain ⟨p, heq, -, hp⟩ := (sidWrites_in_order bibuf twoWrites hrst hfreq hhold).1 28
  have hnone : p = [] := by
    by_contra hne
    exact absurd (hp hne) (by decide)
  rw [hnone, List.append_nil] at heq
  rw [← heq]
  rfl

end SidBridge
