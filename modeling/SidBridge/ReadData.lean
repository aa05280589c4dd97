import SidBridge.Access

/-!
# What a SID read returns

A SID read takes its byte off the pins in the first low cycle after the high phase it waited for, and
answers five states later.  In between nothing touches `HRDATA`, and the bridge does not drive the pins.

* `IsReadStrobe` — a full high phase, and the low cycle after it, with the SID selected for a read;
* `loadsHRDATA`, `HRDATA_keeps` — `HRDATA` changes at register reads and at captures only;
* `Course.read_answer` — what the capture of an access loads stays to its end;
* `sidRead_returns` — **the answer is the byte on the pins** in that low cycle.
-/

namespace SidBridge

/-- A full high phase of `sid_clk`, from `up` to `down`, during which and in the low cycle after which
the SID is selected for a read at `addr`. -/
structure IsReadStrobe (r : ℕ → RegType) (addr : BitVec 5) (up down : ℕ) : Prop
    extends HighPhase r up down where
  selected : ∀ k, up ≤ k → k ≤ down + 1 →
    (r k).sidCsN = false ∧ (r k).sidRw = true ∧ (r k).sidAddr = addr

/-- The read strobe of an access. -/
theorem Course.isReadStrobe {r : ℕ → RegType} {i : Ports} {a F sel rise : ℕ}
    (h : Course r i a F sel rise) (hread : i.HWRITE = false) :
    IsReadStrobe r i.haddr62 (a + rise) (a + (rise + F)) := by
  have hsel := h.sel_lt_rise
  refine ⟨h.highPhase, fun k hk hle => ?_⟩
  obtain ⟨k, rfl⟩ := Nat.exists_eq_add_of_le (show a ≤ k by omega)
  refine ⟨(h.csN k (by omega)).mpr (by omega), ?_, h.addr k (by omega) (by omega)⟩
  rw [h.rw k (by omega) (by omega), hread]
  rfl

/-- No read strobe after the request comes earlier: until the rise, the SID is not selected or the clock
is low. -/
theorem Course.readStrobe_first {r : ℕ → RegType} {i : Ports} {a F sel rise : ℕ}
    (h : Course r i a F sel rise) {addr : BitVec 5} {up down : ℕ} (hup : a < up)
    (hstrobe : IsReadStrobe r addr up down) : a + rise ≤ up := by
  have hsel := h.sel_lt_rise
  by_contra hlt
  obtain ⟨k, rfl⟩ := Nat.exists_eq_add_of_le (Nat.le_of_lt hup)
  have hcs := (hstrobe.selected (a + k) le_rfl (by have := hstrobe.nonempty; omega)).1
  have hclk := hstrobe.high (a + k) le_rfl hstrobe.nonempty
  rw [h.csN k (by omega)] at hcs
  rw [h.clk k (by omega) (by omega)] at hclk
  omega

/-- An edge that loads `HRDATA`. -/
def loadsHRDATA (reg : RegType) (i : Ports) : Bool := registerRead reg i || readCapture reg

/-- While an access is in progress, only the capture can load `HRDATA`. -/
theorem BusSafe.loadsHRDATA_of_busy {reg : RegType} (h : BusSafe reg) (i : Ports)
    (hbusy : reg.HREADYOUT = false) (hno : readCapture reg = false) : loadsHRDATA reg i = false := by
  rw [loadsHRDATA, hno, Bool.or_false]
  cases hr : registerRead reg i with
  | false => rfl
  | true =>
    have hready := h.ready_of (Or.inl (registerRead_iff.mp hr).1)
    rw [hbusy] at hready
    cases hready

/-- An edge without a load leaves `HRDATA`. -/
theorem HRDATA_nextReg_of_not_loads {reg : RegType} {i : Ports} (h : i.HRESETN = true)
    (hno : loadsHRDATA reg i = false) : (nextReg reg i).HRDATA = reg.HRDATA := by
  simp only [loadsHRDATA, Bool.or_eq_false_iff] at hno
  rw [nextReg_eq reg h]
  simp [hno.1, hno.2]

/-- The edge out of a capture loads the zero-extended byte of the pad cells. -/
theorem HRDATA_nextReg_of_readCapture {reg : RegType} {i : Ports} (h : i.HRESETN = true)
    (hcap : readCapture reg = true) : (nextReg reg i).HRDATA = i.sidDataI.setWidth 32 := by
  have hno : registerRead reg i = false := by
    simp [registerRead, (readCapture_eq_true_iff.mp hcap).1]
  rw [nextReg_eq reg h]
  simp [hno, hcap]

section Run

variable {inp : ℕ → Ports} (hrst : ∀ n, (inp n).HRESETN = true)

include hrst

/-- **Frame.**  `HRDATA` stays over every stretch of cycles without a load, whatever else happens. -/
theorem HRDATA_keeps (m k : ℕ) (hk : m ≤ k)
    (hno : ∀ j, m ≤ j → j < k → loadsHRDATA (run inp j) (inp j) = false) :
    (run inp k).HRDATA = (run inp m).HRDATA :=
  Sync.frame_run (f := fun j => (run inp j).HRDATA) hk fun j hj hlt =>
    HRDATA_nextReg_of_not_loads (hrst j) (hno j hj hlt)

/-- **The byte a SID read captured is what it ends with.** -/
theorem Course.read_answer {i : Ports} {a F sel rise : ℕ} (h : Course (run inp) i a F sel rise)
    (hread : i.HWRITE = false) :
    (run inp (a + (rise + F + 5))).HRDATA = (inp (a + (rise + F) + 1)).sidDataI.setWidth 32 := by
  have hsel := h.sel_lt_rise
  have hcapture : readCapture (run inp (a + (rise + F + 1))) = true :=
    (h.capture _ (by omega) (by omega)).mpr ⟨hread, rfl⟩
  -- between the capture and the end there is no other load
  have hkept : (run inp (a + (rise + F + 5))).HRDATA = (run inp (a + (rise + F + 2))).HRDATA := by
    refine HRDATA_keeps hrst _ _ (by omega) fun j hj hlt => ?_
    obtain ⟨j, rfl⟩ := Nat.exists_eq_add_of_le (show a ≤ j by omega)
    refine (busSafe_run inp _).loadsHRDATA_of_busy _ (h.ready j (by omega) (by omega)) ?_
    rw [← Bool.not_eq_true, h.capture j (by omega) (by omega)]
    omega
  exact hkept.trans (HRDATA_nextReg_of_readCapture (hrst _) hcapture)

end Run

/-- **A SID read returns the byte the chip put on the bus**, for every divider value, clock phase and
history: `pins` is what the pads carry, `cell` the vendor's pad cell. -/
theorem sidRead_returns (cell : Bibuf) (inp : ℕ → Ports) (pins : ℕ → BitVec 8)
    (hrst : ∀ n, (inp n).HRESETN = true) (hpins : ∀ n, SamplesPins cell (pins n) (inp n)) (a : ℕ)
    (hreq : sidRequest (run inp a) (inp a) = true) (hread : (inp a).HWRITE = false) :
    ∃ up down d, a < up ∧ IsReadStrobe (run inp) (inp a).haddr62 up down ∧
      (∀ up' down', a < up' → IsReadStrobe (run inp) (inp a).haddr62 up' down' → up ≤ up') ∧
      down + 1 < d ∧ (∀ k, a < k → k < d → (run inp k).HREADYOUT = false) ∧
      (run inp d).HREADYOUT = true ∧
      (run inp d).HRDATA = (pins (down + 1)).setWidth 32 ∧
      (∀ k, a ≤ k → k ≤ d → (run inp k).sidDataOe = false ∧
        sidDataPins cell (run inp k) = fun _ => none) ∧
      ∀ k, d ≤ k → (∀ j, d ≤ j → j < k → loadsHRDATA (run inp j) (inp j) = false) →
        (run inp k).HRDATA = (run inp d).HRDATA := by
  obtain ⟨sel, rise, h⟩ := course_run hrst hreq
  revert h
  generalize (run inp a).sidFreq.toNat = F
  intro h
  have hsel := h.sel_lt_rise
  have hoe : ∀ k, a ≤ k → k ≤ a + (rise + F + 5) → (run inp k).sidDataOe = false := by
    intro k hk hle
    obtain ⟨k, rfl⟩ := Nat.exists_eq_add_of_le hk
    rw [← Bool.not_eq_true, h.oe k (by omega), hread]
    simp
  refine ⟨a + rise, a + (rise + F), a + (rise + F + 5), by omega, h.isReadStrobe hread,
    fun up' down' hup hstrobe => h.readStrobe_first hup hstrobe, by omega, ?_,
    (busSafe_run inp _).ready_of (Or.inl h.done), ?_,
    fun k hk hle => ⟨hoe k hk hle, sidDataPins_disabled cell (hoe k hk hle)⟩, ?_⟩
  · intro k hk hlt
    obtain ⟨k, rfl⟩ := Nat.exists_eq_add_of_le (Nat.le_of_lt hk)
    exact h.ready k (by omega) (by omega)
  · rw [h.read_answer hrst hread, (samplesPins_iff cell _ _).mp (hpins _)]
  · exact fun k hk hno => HRDATA_keeps hrst _ _ hk hno

/-- The SID answers every read with the same byte; the read is the first transfer after reset. -/
def constantChip (byte : BitVec 8) : ℕ → Ports
  | 0 => { Ports.transfer 0x406C false with sidDataI := byte }
  | _ => { Ports.quiet with sidDataI := byte }

/-- The byte such a chip answers with arrives zero-extended. -/
theorem sidRead_returns_constantChip : ∃ d, 0 < d ∧ (run (constantChip 0xA5) d).HREADYOUT = true ∧
    (run (constantChip 0xA5) d).HRDATA = 0xA5#32 := by
  obtain ⟨up, down, d, hup, _, _, hd, _, hready, hdata, _⟩ :=
    sidRead_returns bibuf (constantChip 0xA5) (fun _ => 0xA5) (fun n => by cases n <;> rfl)
      (fun n => by cases n <;> exact fun _ => rfl) 0 rfl rfl
  exact ⟨d, by omega, hready, hdata⟩

end SidBridge
