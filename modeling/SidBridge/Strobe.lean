import SidBridge.Access

/-!
# The strobe an access gives the SID

Between the fall of `sid_cs_n` and its rise the SID should see one high phase of `sid_clk`, and the
select line should move while the clock is low and stays low.

* `IsWindow`, `StrobedOnce` — one full high phase inside the window of an access, and no other high
  cycle;
* `access_strobe_law` — the first high phase of the window is a full one at every divider value, and the
  only one exactly when `sid_freq` is at least the three hold states;
* `CsInLowPhase`, `csInLowPhase_iff` — `sid_cs_n` moves inside low phases exactly when no request is
  taken in the last low cycle but one.
-/

namespace SidBridge

open Sync (IsRun Stage Strober selectAt riseAt)

/-- The window of consecutive cycles with `sid_cs_n` low that the access requested in cycle `a`
produces. -/
structure IsWindow (r : ℕ → RegType) (a first last : ℕ) : Prop where
  after : a < first
  nonempty : first ≤ last
  before : ∀ k, a ≤ k → k < first → (r k).sidCsN = true
  inside : ∀ k, first ≤ k → k ≤ last → (r k).sidCsN = false
  ended : (r (last + 1)).sidCsN = true

/-- In the window, the cycles from `up` to `down` are a full high phase, of the length the divider value
gives it, and the low cycle after it is still inside. -/
structure IsStrobe (r : ℕ → RegType) (a first last up down : ℕ) : Prop
    extends HighPhase r up down where
  starts : first ≤ up
  full : down = up + (r a).sidFreq.toNat
  ends : down < last

/-- The access requested in cycle `a` under the inputs `i` strobes the SID once and only once, and a
write drives its byte in the last high cycle. -/
def StrobedOnce (r : ℕ → RegType) (i : Ports) (a : ℕ) : Prop :=
  ∃ first last up down, IsWindow r a first last ∧ IsStrobe r a first last up down ∧
    (∀ k, first ≤ k → k ≤ last → (r k).sidClk = true → up ≤ k ∧ k ≤ down) ∧
    (i.HWRITE = true → (r down).sidDataOe = true)

namespace Course

variable {r : ℕ → RegType} {i : Ports} {a F sel rise : ℕ}

/-- The window of an access. -/
theorem isWindow (h : Course r i a F sel rise) :
    IsWindow r a (a + (sel + 1)) (a + (rise + F + 4)) := by
  have hsel := h.sel_lt_rise
  refine ⟨by omega, by omega, ?_, ?_, ?_⟩
  · intro k hk hlt
    obtain ⟨k, rfl⟩ := Nat.exists_eq_add_of_le hk
    rw [← Bool.not_eq_false, h.csN k (by omega)]
    omega
  · intro k hk hle
    obtain ⟨k, rfl⟩ := Nat.exists_eq_add_of_le (show a ≤ k by omega)
    exact (h.csN k (by omega)).mpr (by omega)
  · rw [← Bool.not_eq_false, Nat.add_assoc, h.csN _ (by omega)]
    omega

/-- The first high phase of the window is a full one. -/
theorem isStrobe (h : Course r i a F sel rise) (hF : (r a).sidFreq.toNat = F) :
    IsStrobe r a (a + (sel + 1)) (a + (rise + F + 4)) (a + rise) (a + (rise + F)) := by
  have hsel := h.sel_lt_rise
  exact ⟨h.highPhase, by omega, by omega, by omega⟩

/-- A window is determined by its access. -/
theorem isWindow_unique {first last first' last' : ℕ} (h : IsWindow r a first last)
    (h' : IsWindow r a first' last') : first = first' ∧ last = last' := by
  have hfirst : first = first' := by
    rcases lt_trichotomy first first' with hlt | heq | hgt
    · have := h'.before first (Nat.le_of_lt h.after) hlt
      rw [h.inside first le_rfl h.nonempty] at this
      cases this
    · exact heq
    · have := h.before first' (Nat.le_of_lt h'.after) hgt
      rw [h'.inside first' le_rfl h'.nonempty] at this
      cases this
  subst hfirst
  refine ⟨rfl, ?_⟩
  rcases lt_trichotomy last last' with hlt | heq | hgt
  · have := h'.inside (last + 1) (by have := h.nonempty; omega) hlt
    rw [h.ended] at this
    cases this
  · exact heq
  · have := h.inside (last' + 1) (by have := h'.nonempty; omega) hgt
    rw [h'.ended] at this
    cases this

/-- **One strobe exactly when the limit reaches the three hold states.** -/
theorem strobedOnce_iff (h : Course r i a F sel rise) (hF : (r a).sidFreq.toNat = F) :
    StrobedOnce r i a ↔ 3 ≤ F := by
  have hsel := h.sel_lt_rise
  constructor
  · intro hall
    obtain ⟨first, last, up, down, hwin, hstrobe, honly, _⟩ := hall
    obtain ⟨rfl, rfl⟩ := isWindow_unique hwin h.isWindow
    have hrise := (h.clk rise (by omega) (by omega)).mpr (by omega)
    have hin := honly (a + rise) (by omega) (by omega) hrise
    -- the one run of high cycles starts where the first one does
    have hup : up = a + rise := by
      by_contra hne
      have hhigh := hstrobe.high (a + (rise - 1)) (by omega) (by omega)
      rw [h.clk _ (by omega) (by omega)] at hhigh
      omega
    have hdown := hstrobe.full
    rw [hF] at hdown
    refine h.single.mp fun k hk hle => ⟨fun hclk => ?_, fun hle' => ?_⟩
    · have := honly (a + k) (by omega) (by omega) hclk
      omega
    · exact hstrobe.high (a + k) (by omega) (by omega)
  · intro hle
    refine ⟨_, _, _, _, h.isWindow, h.isStrobe hF, ?_, ?_⟩
    · intro k hk hlast hclk
      obtain ⟨k, rfl⟩ := Nat.exists_eq_add_of_le (show a ≤ k by omega)
      have := (h.single.mpr hle k (by omega) (by omega)).mp hclk
      omega
    · intro hwrite
      exact (h.oe _ (by omega)).mpr ⟨hwrite, by omega, by omega⟩

end Course

/-! ### The strobe along a run -/

/-- **The strobe of an access, at every divider value.**  The first run of high cycles in the window is
a full high phase followed by a low cycle of the window, with the byte of a write driven in its last
cycle unless the divider value is zero; and it is the only run exactly when `sid_freq` is at least
three. -/
theorem access_strobe_law (inp : ℕ → Ports) (hrst : ∀ n, (inp n).HRESETN = true) (a : ℕ)
    (hreq : sidRequest (run inp a) (inp a) = true) :
    (∃ first last up down, IsWindow (run inp) a first last ∧ IsStrobe (run inp) a first last up down ∧
      (∀ k, first ≤ k → k < up → (run inp k).sidClk = false) ∧
      ((inp a).HWRITE = true →
        ((run inp down).sidDataOe = true ↔ 1 ≤ (run inp a).sidFreq.toNat))) ∧
    (StrobedOnce (run inp) (inp a) a ↔ 3 ≤ (run inp a).sidFreq.toNat) := by
  obtain ⟨sel, rise, h⟩ := course_run hrst hreq
  refine ⟨⟨_, _, _, _, h.isWindow, h.isStrobe rfl, ?_, ?_⟩, h.strobedOnce_iff rfl⟩
  · intro k hk hlt
    obtain ⟨k, rfl⟩ := Nat.exists_eq_add_of_le (show a ≤ k by omega)
    rw [← Bool.not_eq_true, h.clk k (by omega) (by omega)]
    omega
  · intro hwrite
    rw [h.oe _ (by omega), hwrite]
    constructor
    · intro hall
      obtain ⟨_, hlt, _⟩ := hall
      omega
    · exact fun hpos => ⟨rfl, by omega, by omega⟩

/-- The law for one write at the reset divider value: a single strobe. -/
theorem access_strobe_law_default : StrobedOnce (run (sidWriteAt 0)) (sidWriteAt 0 0) 0 :=
  (access_strobe_law (sidWriteAt 0) (sidWriteAt_no_reset 0) 0 rfl).2.mpr (by decide)

/-- Software sets the divider value and then writes to the SID. -/
def fastWrite (freq : BitVec 32) : ℕ → Ports := setFreq freq (sidWriteAt 0)

/-- At divider value two the window of a write ends in the middle of a second high phase. -/
theorem fastWrite_not_strobedOnce :
    (∀ n, (fastWrite 2 n).HRESETN = true) ∧
      sidRequest (run (fastWrite 2) 2) (fastWrite 2 2) = true ∧
      (run (fastWrite 2) 2).sidFreq = 2#8 ∧
      ¬StrobedOnce (run (fastWrite 2)) (fastWrite 2 2) 2 := by
  have hrst : ∀ n, (fastWrite 2 n).HRESETN = true := setFreq_no_reset 2 (sidWriteAt_no_reset 0)
  refine ⟨hrst, by decide, by decide, fun honce => ?_⟩
  obtain ⟨sel, rise, h⟩ := course_run hrst (a := 2) (by decide)
  have hle := (h.strobedOnce_iff rfl).mp honce
  exact absurd hle (by decide)

/-! ### Where the select line moves -/

/-- Whenever `sid_cs_n` changes, `sid_clk` is low before and after. -/
def CsInLowPhase (r : ℕ → RegType) : Prop :=
  ∀ k, (r k).sidCsN ≠ (r (k + 1)).sidCsN → (r k).sidClk = false ∧ (r (k + 1)).sidClk = false

/-- The last low cycle but one: the clock rises two edges later. -/
def LastLowButOne (reg : RegType) : Prop :=
  reg.sidClk = false ∧ reg.sidClkCntr + 1 = reg.sidFreq.toNat

/-- An edge that moves the select line is the select edge or the release edge. -/
theorem select_or_release {reg : RegType} {i : Ports} (h : i.HRESETN = true)
    (hmove : reg.sidCsN ≠ (nextReg reg i).sidCsN) : selectEdge reg = true ∨ releaseEdge reg = true := by
  rw [nextReg_eq reg h] at hmove
  cases hs : selectEdge reg with
  | true => exact Or.inl rfl
  | false =>
    cases hr : releaseEdge reg with
    | true => exact Or.inr rfl
    | false => simp [hs, hr] at hmove

/-- The select edge is the last of the first wait. -/
theorem stage_of_selectEdge {reg : RegType} (h : selectEdge reg = true) :
    (strober reg).stage = .waitLow ∧ reg.sidClk = false := by
  cases hs : reg.state <;> simp_all [selectEdge, strober, StateType.stage]

/-- The release edge is the last of the hold cycles. -/
theorem stage_of_releaseEdge {reg : RegType} (h : releaseEdge reg = true) :
    (strober reg).stage = .hold 0 := by
  cases hs : reg.state <;> simp_all [releaseEdge, strober, StateType.stage]

section SelectLine

variable {inp : ℕ → Ports} (hrst : ∀ n, (inp n).HRESETN = true)
  (hfreq : ∀ a, sidRequest (run inp a) (inp a) = true → 4 ≤ (run inp a).sidFreq.toNat)

include hrst

/-- A request in the last low cycle but one selects the SID at the rising edge of `sid_clk`. -/
theorem selects_at_rise {a : ℕ} (hreq : sidRequest (run inp a) (inp a) = true)
    (hlast : LastLowButOne (run inp a)) :
    (run inp (a + 1)).sidCsN = true ∧ (run inp (a + 2)).sidCsN = false ∧
      (run inp (a + 2)).sidClk = true := by
  have h := course (run_isRun inp) hrst busSafe_resetReg hreq
  obtain ⟨hlow, hcnt⟩ := hlast
  have hlt : (run inp a).sidClkCntr < (run inp a).sidFreq.toNat := by omega
  have htwo : (run inp a).sidFreq.toNat - (run inp a).sidClkCntr + 1 = 2 := by omega
  rw [hlow, Sync.selectAt_of_low hlt, Sync.riseAt_of_low hlt, htwo] at h
  refine ⟨?_, (h.csN 2 (by omega)).mpr (by omega), (h.clk 2 (by omega) (by omega)).mpr (by omega)⟩
  rw [← Bool.not_eq_false, h.csN 1 (by omega)]
  omega

include hfreq

/-- Every access in progress runs at a divider value that outlasts the hold states. -/
theorem busy_freq (n : ℕ) (hbusy : (strober (run inp n)).stage ≠ .idle) :
    4 ≤ (run inp n).sidFreq.toNat :=
  Sync.busy_limit (isRun_strober (run_isRun inp) hrst) rfl
    (fun a _ hreq => hfreq a hreq) n hbusy

/-- The release edge lies in the fourth cycle of a low phase. -/
theorem release_in_low {n : ℕ} (h : releaseEdge (run inp n) = true) :
    (run inp n).sidClk = false ∧ (run inp (n + 1)).sidClk = false := by
  have hstage := stage_of_releaseEdge h
  have hlim := busy_freq hrst hfreq n (by rw [hstage]; simp)
  have hphase := Sync.inPhase_run (isRun_strober (run_isRun inp) hrst) rfl
    (fun m hm => Nat.le_of_succ_le (busy_freq hrst hfreq m hm)) n
  rw [Sync.InPhase] at hphase
  simp only [hstage] at hphase
  simp only [strober, Sync.Divider.mk.injEq] at hphase
  obtain ⟨_, hclk, hcnt⟩ := hphase
  refine ⟨hclk, ?_⟩
  rw [run_succ, sidClk_nextReg_of_lt (hrst n) (by omega)]
  exact hclk

end SelectLine

/-- **Where the select line moves.**  At divider values of at least four, `sid_cs_n` moves inside low
phases of `sid_clk` in a run exactly when the run takes no SID request in the last low cycle but one. -/
theorem csInLowPhase_iff (inp : ℕ → Ports) (hrst : ∀ n, (inp n).HRESETN = true)
    (hfreq : ∀ a, sidRequest (run inp a) (inp a) = true → 4 ≤ (run inp a).sidFreq.toNat) :
    CsInLowPhase (run inp) ↔
      ∀ a, sidRequest (run inp a) (inp a) = true → ¬LastLowButOne (run inp a) := by
  constructor
  · intro hcs a hreq hlast
    obtain ⟨hbefore, hafter, hhigh⟩ := selects_at_rise hrst hreq hlast
    have := (hcs (a + 1) (by rw [hbefore, hafter]; simp)).2
    rw [hhigh] at this
    cases this
  · intro hno k hmove
    rcases select_or_release (hrst k) hmove with hsel | hrel
    · obtain ⟨hstage, hlow⟩ := stage_of_selectEdge hsel
      have hpos : ∀ n, (strober (run inp n)).stage ≠ .idle ∨ sidRequest (run inp n) (inp n) = true →
          0 < (run inp n).sidFreq.toNat := by
        intro n hn
        rcases hn with hbusy | hreq
        · exact Nat.lt_of_lt_of_le (by decide) (busy_freq hrst hfreq n hbusy)
        · exact Nat.lt_of_lt_of_le (by decide) (hfreq n hreq)
      have hcount := Sync.selectsLow_run
        (isRun_strober (run_isRun inp) hrst) rfl hpos
        (fun n _ hreq => hno n hreq) k hstage hlow
      refine ⟨hlow, ?_⟩
      rw [run_succ, sidClk_nextReg_of_lt (hrst k) hcount]
      exact hlow
    · exact release_in_low hrst hfreq hrel

/-- A run with a single write requests nothing else. -/
theorem sidWriteAt_request {a b : ℕ}
    (hreq : sidRequest (run (sidWriteAt a) b) (sidWriteAt a b) = true) : b = a := by
  have hsel := (sidRequest_iff.mp hreq).2.1
  by_contra hne
  rw [sidWriteAt, if_neg hne] at hsel
  cases hsel

/-- A run with one request, at a harmless phase. -/
theorem csInLowPhase_sidWriteAt_zero : CsInLowPhase (run (sidWriteAt 0)) := by
  refine (csInLowPhase_iff (sidWriteAt 0) (sidWriteAt_no_reset 0) ?_).mpr ?_
  · intro a hreq
    rw [sidWriteAt_request hreq]
    decide
  · intro a hreq
    rw [sidWriteAt_request hreq, LastLowButOne]
    decide

/-- After reset, the write whose address phase lies in cycle 34 selects the SID at a rising edge. -/
theorem sidWriteAt_34_not_csInLowPhase :
    (∀ n, (sidWriteAt 34 n).HRESETN = true) ∧
      (∀ a, sidRequest (run (sidWriteAt 34) a) (sidWriteAt 34 a) = true →
        4 ≤ (run (sidWriteAt 34) a).sidFreq.toNat) ∧
      ¬CsInLowPhase (run (sidWriteAt 34)) := by
  have hrst : ∀ n, (sidWriteAt 34 n).HRESETN = true := sidWriteAt_no_reset 34
  refine ⟨hrst, fun a hreq => ?_, fun hcs => ?_⟩
  · rw [sidWriteAt_request hreq]
    decide
  · obtain ⟨hbefore, hafter, hhigh⟩ := selects_at_rise hrst (a := 34) (by decide) (by
      rw [LastLowButOne]; decide)
    have := (hcs 35 (by rw [hbefore, hafter]; simp)).2
    rw [hhigh] at this
    cases this

end SidBridge
