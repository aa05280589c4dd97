import SidBridge.RegisterFile
import SidBridge.Access

/-!
# The `sid_clk` divider under reprogramming

The divider statement compares `sid_clk_cntr` with a `sid_freq` that software may write in any cycle, so
the limit can drop below the running count.  The strober of a bridge holds a divided clock, and its laws
are those of the bridge:

* `freqWrites`, `isRun_sidFreq` — `sid_freq` is a register of its own, driven by the writes to its
  address and by nothing else;
* `isRun_divider` — `sid_clk` and `sid_clk_cntr` are a divided clock, driven by `sid_freq` and by nothing
  else;
* `DividerLaw`, `dividerLaw_run` — count, range, half-periods and independence in every run from a reset.
-/

namespace SidBridge

open Sync (IsRun StartsHalf HalfPeriod HalfLength)

/-- The upper bound in the declaration of `sid_clk_cntr`. -/
def sidClkCntrHigh : ℕ := 1000000

/-- What cycle `d` writes to `sid_freq`, if it is the data cycle of a write to its address. -/
def freqWrites (inp : ℕ → Ports) (d : ℕ) : Option (BitVec 8) :=
  (registerWrites inp d).bind fun w =>
    if w.1 = 0b01#2 then some (w.2.extractLsb' 0 8) else none

/-- `sid_clk`, cycle by cycle. -/
def sidClkLevel (inp : ℕ → Ports) (n : ℕ) : Bool := (run inp n).sidClk

section Run

variable {inp : ℕ → Ports} (hrst : ∀ n, (inp n).HRESETN = true)

include hrst

/-- `sid_freq` as a machine: a value that its own writes replace. -/
theorem isRun_sidFreq : IsRun (fun F w => Option.getD w F) (fun n => (run inp n).sidFreq)
    (freqWrites inp) :=
  register_succ hrst (·.sidFreq) (fun d => d.extractLsb' 0 8) 0b01#2
    (fun reg i h => by rw [nextReg_eq reg h]; rfl)

/-- The divider as a machine: a divided clock under the `sid_freq` in force. -/
theorem isRun_divider : IsRun (fun d F => Sync.Divider.tick F d)
    (fun n => ⟨(run inp n).sidClk, (run inp n).sidClkCntr⟩) (fun n => (run inp n).sidFreq.toNat) :=
  Sync.isRun_clock (isRun_strober (run_isRun inp) hrst)

end Run

/-! ### The law -/

/-- The divider along a run: its count and its range, that every half-period ends and how long it is, and
all that it depends on. -/
structure DividerLaw (inp : ℕ → Ports) : Prop where
  /-- The counter is the number of cycles since the last toggle, or since the reset. -/
  count : ∀ n, ∃ s, IsGreatest {k | k ≤ n ∧ StartsHalf (sidClkLevel inp) k} s ∧
    (run inp n).sidClkCntr = n - s
  range : ∀ n, (run inp n).sidClkCntr ≤ 255 ∧ (run inp n).sidClkCntr ≤ sidClkCntrHigh
  ends : ∀ k, StartsHalf (sidClkLevel inp) k → ∃ l, l ≤ 256 ∧ HalfPeriod (sidClkLevel inp) k l
  length : ∀ k l, HalfPeriod (sidClkLevel inp) k l →
    IsLeast {m | 1 ≤ m ∧ (run inp (k + m - 1)).sidFreq.toNat ≤ m - 1} l
  steady : ∀ k l F, HalfPeriod (sidClkLevel inp) k l →
    (∀ j, j < l → (run inp (k + j)).sidFreq = F) → l = F.toNat + 1
  between : ∀ k l, HalfPeriod (sidClkLevel inp) k l →
    ∃ lo hi, IsLeast ((fun j => (run inp (k + j)).sidFreq.toNat) '' Set.Iio l) lo ∧
      IsGreatest ((fun j => (run inp (k + j)).sidFreq.toNat) '' Set.Iio l) hi ∧
      lo + 1 ≤ l ∧ l ≤ hi + 1
  /-- Any run with the same `sid_freq` so far shows the same divider. -/
  independent : ∀ inp', (∀ n, (inp' n).HRESETN = true) →
    ∀ n, (∀ d, d < n → (run inp d).sidFreq = (run inp' d).sidFreq) →
      (run inp n).sidClk = (run inp' n).sidClk ∧ (run inp n).sidClkCntr = (run inp' n).sidClkCntr
  freq : ∀ n, (run inp (n + 1)).sidFreq = (freqWrites inp n).getD (run inp n).sidFreq
  /-- Any run with the same writes to `sid_freq` so far shows the same divider. -/
  independent_writes : ∀ inp', (∀ n, (inp' n).HRESETN = true) →
    ∀ n, (∀ d, d < n → freqWrites inp d = freqWrites inp' d) →
      (run inp n).sidClk = (run inp' n).sidClk ∧ (run inp n).sidClkCntr = (run inp' n).sidClkCntr

section Law

variable {inp inp' : ℕ → Ports} (hrst : ∀ n, (inp n).HRESETN = true)
  (hrst' : ∀ n, (inp' n).HRESETN = true)

include hrst

theorem sidClkCntr_le (n : ℕ) : (run inp n).sidClkCntr ≤ 255 :=
  Sync.count_le_run (isRun_divider hrst) rfl (fun k => Nat.le_of_lt_succ (run inp k).sidFreq.isLt) n

theorem halfPeriod_exists {k : ℕ} (hk : StartsHalf (sidClkLevel inp) k) :
    ∃ l, l ≤ 256 ∧ HalfPeriod (sidClkLevel inp) k l :=
  Sync.exists_halfPeriod (isRun_divider hrst) rfl
    (fun k => Nat.le_of_lt_succ (run inp k).sidFreq.isLt) hk

/-- A half-period of `sid_clk` obeys the length law on `sid_freq`. -/
theorem halfLength_of_halfPeriod {k l : ℕ} (h : HalfPeriod (sidClkLevel inp) k l) :
    HalfLength (fun n => (run inp n).sidFreq.toNat) k l :=
  (Sync.halfPeriod_iff (isRun_divider hrst) rfl h.starts l).mp h

include hrst'

theorem divider_congr {n : ℕ} (h : ∀ d, d < n → (run inp d).sidFreq = (run inp' d).sidFreq) :
    (run inp n).sidClk = (run inp' n).sidClk ∧
      (run inp n).sidClkCntr = (run inp' n).sidClkCntr := by
  have heq := (isRun_divider hrst).congr (isRun_divider hrst') rfl n fun d hd =>
    congrArg BitVec.toNat (h d hd)
  exact ⟨congrArg Sync.Divider.level heq, congrArg Sync.Divider.count heq⟩

theorem sidFreq_congr {n : ℕ} (h : ∀ d, d < n → freqWrites inp d = freqWrites inp' d) :
    (run inp n).sidFreq = (run inp' n).sidFreq :=
  (isRun_sidFreq hrst).congr (isRun_sidFreq hrst') rfl n h

end Law

/-- **The divider under reprogramming**, in every run without another reset. -/
theorem dividerLaw_run (inp : ℕ → Ports) (hrst : ∀ n, (inp n).HRESETN = true) :
    DividerLaw inp where
  count n := Sync.lastStart_run (isRun_divider hrst) rfl n
  range n :=
    have hle : (run inp n).sidClkCntr ≤ 255 := sidClkCntr_le hrst n
    ⟨hle, hle.trans (by decide)⟩
  ends _ hk := halfPeriod_exists hrst hk
  length _ _ h := halfLength_of_halfPeriod hrst h
  steady _ _ _ h hF :=
    (halfLength_of_halfPeriod hrst h).eq_of_steady fun j hj => congrArg BitVec.toNat (hF j hj)
  between _ _ h := (halfLength_of_halfPeriod hrst h).between
  independent _ hrst' _ h := divider_congr hrst hrst' h
  freq n := isRun_sidFreq hrst n
  independent_writes _ hrst' n h :=
    divider_congr hrst hrst' fun d hd => sidFreq_congr hrst hrst' fun e he => h e (he.trans hd)

/-- Software lowers the divider value to one while the count is already two. -/
def freqLowered : ℕ → Ports := setFreq 1 fun _ => Ports.quiet

/-- The law for that run: the half-period under way ends at once, after three cycles. -/
theorem dividerLaw_freqLowered : DividerLaw freqLowered ∧
    (run freqLowered 2).sidFreq = 1#8 ∧ (run freqLowered 2).sidClkCntr = 2 ∧
    HalfPeriod (sidClkLevel freqLowered) 0 3 := by
  refine ⟨dividerLaw_run freqLowered (setFreq_no_reset _ fun _ => rfl), rfl, rfl, ?_⟩
  exact ⟨Or.inl rfl, by decide, by decide, by decide⟩

end SidBridge
