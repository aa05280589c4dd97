import SidBridge.Access

/-!
# Saturation: one access per clock period

When the next SID request is there in the cycle in which an access completes, the three hold states, the
idle cycle and the next first wait leave the divided clock in the phase from which the very next high
phase is caught.

* `BackToBack` — a stream of accesses without a gap;
* `Course.phase_at_end`, `Course.next_fall` — from the end of one access to the strobe of the next;
* `course_of_backToBack` — every access of the stream has its course: the induction;
* `saturation` — the strobes of such a stream are exactly one period of `sid_clk` apart.
-/

namespace SidBridge

open Sync (IsRun selectAt riseAt)

/-- `n` SID accesses, the first requested in cycle `start 0`, each later one in the first cycle in which
the bridge is ready again. -/
structure BackToBack (r : ℕ → RegType) (inp : ℕ → Ports) (n : ℕ) (start : ℕ → ℕ) : Prop where
  request : ∀ i, i < n → sidRequest (r (start i)) (inp (start i)) = true
  later : ∀ i, i + 1 < n → start i < start (i + 1)
  busy : ∀ i, i + 1 < n → ∀ k, start i < k → k < start (i + 1) → (r k).HREADYOUT = false
  ready : ∀ i, i + 1 < n → (r (start (i + 1))).HREADYOUT = true

/-- Cycle `k` lies in the access requested in cycle `a`: the request is taken, and the bridge has not been
ready since. -/
def InAccess (r : ℕ → RegType) (a k : ℕ) : Prop :=
  a < k ∧ ∀ j, a < j → j ≤ k → (r j).HREADYOUT = false

section Step

variable {r : ℕ → RegType} {inp : ℕ → Ports} (hr : IsRun nextReg r inp) (h0 : BusSafe (r 0))

include hr h0

/-- The first ready cycle after a request is the end of its course. -/
theorem Course.end_eq {i : Ports} {a F sel rise b : ℕ} (h : Course r i a F sel rise) (hlt : a < b)
    (hbusy : ∀ k, a < k → k < b → (r k).HREADYOUT = false) (hready : (r b).HREADYOUT = true) :
    b = a + (rise + F + 5) := by
  have hend := (busSafe_of_isRun hr h0 (a + (rise + F + 5))).ready_of (Or.inl h.done)
  rcases lt_trichotomy b (a + (rise + F + 5)) with hb | hb | hb
  · obtain ⟨k, rfl⟩ := Nat.exists_eq_add_of_le (Nat.le_of_lt hlt)
    rw [h.ready k (by omega) (by omega)] at hready
    cases hready
  · exact hb
  · rw [hbusy _ (by omega) hb] at hend
    cases hend

/-- Every cycle of an access lies in its course. -/
theorem Course.lt_end {i : Ports} {a F sel rise k : ℕ} (h : Course r i a F sel rise)
    (hk : InAccess r a (a + k)) : k < rise + F + 5 := by
  by_contra hge
  have hend := (busSafe_of_isRun hr h0 (a + (rise + F + 5))).ready_of (Or.inl h.done)
  rw [hk.2 _ (by omega) (by omega)] at hend
  cases hend

omit hr h0 in
/-- **The step of the induction.**  The cycle that ends an access is the fifth of a low phase: a request
there selects at once, and catches the next high phase. -/
theorem Course.phase_at_end {i : Ports} {a F sel rise : ℕ} (h : Course r i a F sel rise) (hF : 5 ≤ F) :
    selectAt (r (a + (rise + F + 5))).sidClk (r (a + (rise + F + 5))).sidClkCntr F = 1 ∧
      riseAt (r (a + (rise + F + 5))).sidClk (r (a + (rise + F + 5))).sidClkCntr F = F - 3 := by
  obtain ⟨hclk, hcnt⟩ := h.clk_after 4 (by omega) (by omega)
  rw [show rise + F + 1 + 4 = rise + F + 5 by omega] at hclk hcnt
  rw [hclk, hcnt]
  refine ⟨Sync.selectAt_of_low (by omega), ?_⟩
  rw [Sync.riseAt_of_low (by omega)]
  omega

omit hr h0 in
/-- From the fall of one access to the fall of the next: one low phase, one high phase, and two cycles in
which the SID is not selected. -/
theorem Course.next_fall {i i' : Ports} {a F sel rise : ℕ} (h : Course r i a F sel rise)
    (h' : Course r i' (a + (rise + F + 5)) F 1 (F - 3)) (hF : 5 ≤ F) (k : ℕ)
    (hk : rise + F < k) (hle : k ≤ rise + F + 2 * (F + 1)) :
    ((r (a + k)).sidClk = true ↔ rise + F + (F + 1) < k) ∧
      ((r (a + k)).sidCsN = true ↔ k = rise + F + 5 ∨ k = rise + F + 6) := by
  rcases Nat.lt_or_ge (rise + F + 5) k with hlt | hge
  · obtain ⟨k, rfl⟩ := Nat.exists_eq_add_of_le (Nat.le_of_lt hlt)
    rw [← Nat.add_assoc]
    constructor
    · rw [h'.clk k (by omega) (by omega)]
      omega
    · rw [← Bool.not_eq_false, h'.csN k (by omega)]
      omega
  · constructor
    · obtain ⟨j, rfl⟩ := Nat.exists_eq_add_of_le (Nat.succ_le_of_lt hk)
      rw [Nat.succ_eq_add_one] at hge ⊢
      have hlow := (h.clk_after j (by omega) (by omega)).1
      simp only [hlow, Bool.false_eq_true, false_iff]
      omega
    · rw [← Bool.not_eq_false, h.csN k (by omega)]
      have hsel := h.sel_lt_rise
      omega

/-- Every access of a stream has its course, all at one divider value. -/
theorem course_of_backToBack (hrst : ∀ n, (inp n).HRESETN = true) {n : ℕ} {start : ℕ → ℕ}
    (h : BackToBack r inp n start) {F : ℕ} (hfreq : (r (start 0)).sidFreq.toNat = F) (i : ℕ)
    (hi : i < n) : (r (start i)).sidFreq.toNat = F ∧
      Course r (inp (start i)) (start i) F (selectAt (r (start i)).sidClk (r (start i)).sidClkCntr F)
        (riseAt (r (start i)).sidClk (r (start i)).sidClkCntr F) := by
  have hfreq' : (r (start i)).sidFreq.toNat = F := by
    induction i with
    | zero => exact hfreq
    | succ i ih =>
      have hcourse := course hr hrst h0 (h.request i (by omega))
      rw [ih (by omega)] at hcourse
      rw [Course.end_eq hr h0 hcourse (h.later i hi) (h.busy i hi) (h.ready i hi),
        hcourse.freq _ le_rfl, ih (by omega)]
  have hcourse := course hr hrst h0 (h.request i hi)
  rw [hfreq'] at hcourse
  exact ⟨hfreq', hcourse⟩

end Step

/-- The cycles from a request taken on `reg` to the last high one its access strobes with. -/
def strobeEnd (reg : RegType) : ℕ :=
  riseAt reg.sidClk reg.sidClkCntr reg.sidFreq.toNat + reg.sidFreq.toNat

/-- **One access per clock period.**  In a stream of SID accesses without gaps, at a divider value of at
least five and from any phase of `sid_clk`, every access has exactly one falling edge of `sid_clk` while
selected, and the next one has its own exactly one period later: one low phase, then one high phase, and
two cycles in which the SID is not selected. -/
theorem saturation {reg : RegType} (hreg : Reachable reg) (inp : ℕ → Ports)
    (hrst : ∀ n, (inp n).HRESETN = true) (n : ℕ) (start : ℕ → ℕ)
    (h : BackToBack (Sync.run nextReg reg inp) inp n start) (F : ℕ)
    (hfreq : (Sync.run nextReg reg inp (start 0)).sidFreq.toNat = F) (hF : 5 ≤ F) :
    ∃ fall : ℕ → ℕ,
      (∀ i, i < n → InAccess (Sync.run nextReg reg inp) (start i) (fall i) ∧
        ∀ k, InAccess (Sync.run nextReg reg inp) (start i) k →
          (selectedFall (Sync.run nextReg reg inp k) (Sync.run nextReg reg inp (k + 1)) = true ↔
            k = fall i)) ∧
      ∀ i, i + 1 < n → fall (i + 1) = fall i + 2 * (F + 1) ∧
        (∀ k, fall i < k → k ≤ fall (i + 1) →
          ((Sync.run nextReg reg inp k).sidClk = true ↔ fall i + (F + 1) < k)) ∧
        (∀ k, fall i < k → k ≤ fall (i + 1) →
          ((Sync.run nextReg reg inp k).sidCsN = true ↔ k = fall i + 5 ∨ k = fall i + 6)) := by
  have hr := Sync.isRun_run nextReg reg inp
  have h0 : BusSafe (Sync.run nextReg reg inp 0) := hreg.busSafe
  revert hfreq h hr h0
  generalize Sync.run nextReg reg inp = r
  intro h hfreq hr h0
  have hcourse := course_of_backToBack hr h0 hrst h hfreq
  refine ⟨fun i => start i + strobeEnd (r (start i)), fun i hi => ?_, fun i hi => ?_⟩
  · obtain ⟨hfi, hc⟩ := hcourse i hi
    have hrise := hc.sel_lt_rise
    simp only [strobeEnd, hfi]
    refine ⟨⟨by omega, fun j hj hle => ?_⟩, fun k hk => ?_⟩
    · obtain ⟨j, rfl⟩ := Nat.exists_eq_add_of_le (Nat.le_of_lt hj)
      exact hc.ready j (by omega) (by omega)
    · obtain ⟨k, rfl⟩ := Nat.exists_eq_add_of_le (Nat.le_of_lt hk.1)
      have hlt := Course.lt_end hr h0 hc hk
      rw [Nat.add_assoc, hc.selectedFall_iff (by omega) (by omega)]
      omega
  · obtain ⟨hfi, hc⟩ := hcourse i (by omega)
    obtain ⟨hfi', hc'⟩ := hcourse (i + 1) hi
    have hend := Course.end_eq hr h0 hc (h.later i hi) (h.busy i hi) (h.ready i hi)
    obtain ⟨hsel', hrise'⟩ := hc.phase_at_end hF
    rw [← hend] at hsel' hrise'
    rw [hsel', hrise', hend] at hc'
    simp only [strobeEnd, hfi, hfi', hrise']
    have hfall : start (i + 1) + (F - 3 + F) = start i
        + (riseAt (r (start i)).sidClk (r (start i)).sidClkCntr F + F + 2 * (F + 1)) := by omega
    rw [hfall]
    have hbetween := hc.next_fall hc' hF
    refine ⟨by omega, fun k hk hle => ?_, fun k hk hle => ?_⟩
    · obtain ⟨k, rfl⟩ := Nat.exists_eq_add_of_le (show start i ≤ k by omega)
      rw [(hbetween k (by omega) (by omega)).1]
      omega
    · obtain ⟨k, rfl⟩ := Nat.exists_eq_add_of_le (show start i ≤ k by omega)
      rw [(hbetween k (by omega) (by omega)).2]
      omega

/-- Software sets the divider value to five, and then requests SID writes without a pause. -/
def writeStream : ℕ → Ports := setFreq 5 fun _ => Ports.transfer 0x4000 true

/-- The requests its first three accesses are taken at. -/
def writeStreamStart : ℕ → ℕ
  | 0 => 2
  | i + 1 => 16 + 12 * i

/-- The first three strobes of that stream are twelve cycles apart. -/
theorem saturation_writeStream :
    ∃ fall : ℕ → ℕ, 2 < fall 0 ∧ fall 1 = fall 0 + 12 ∧ fall 2 = fall 1 + 12 := by
  have hbusy : ∀ k, k < 28 → 2 < k ∧ k ≠ 16 → (run writeStream k).HREADYOUT = false := by decide
  have hstream : BackToBack (run writeStream) writeStream 3 writeStreamStart := by
    constructor
    · decide
    · exact fun i hi => by match i with | 0 => decide | 1 => decide
    · intro i hi k hk hlt
      match i with
      | 0 =>
        simp only [writeStreamStart] at hk hlt
        exact hbusy k (by omega) (by omega)
      | 1 =>
        simp only [writeStreamStart] at hk hlt
        exact hbusy k (by omega) (by omega)
    · exact fun i hi => by match i with | 0 => decide | 1 => decide
  have hreach : Reachable resetReg := ⟨writeStream, 0, rfl⟩
  have hrst : ∀ n, (writeStream n).HRESETN = true := setFreq_no_reset 5 fun _ => rfl
  obtain ⟨fall, hin, hnext⟩ := saturation hreach writeStream hrst 3 writeStreamStart hstream 5
    (by decide) le_rfl
  exact ⟨fall, (hin 0 (by decide)).1.1, (hnext 0 (by decide)).1, (hnext 1 (by decide)).1⟩

end SidBridge
