import SidBridge.Sync.Divider

/-!
# Strobing a device on a free-running divided clock

A controller owns a *divided clock* — a level that toggles when a counter reaches a limit — and gives a
slow device one active clock phase per request.  It does so with three waits on the level and a tail of
hold cycles: wait for a low level, select the device, wait for a high one, wait for the fall, hold the
selection for `tail + 1` cycles, release.  Nothing here says what the device is.

* `Stage`, `Strober`, `Strober.step` — the controller with its clock and the limit in force, which may be
  reloaded only while the controller is idle;
* `Timeline`, `timeline` — **the whole course of one access**, cycle by cycle, from an arbitrary phase
  of the clock: when it selects, when the level rises and falls, and when it is idle again;
* `InPhase`, `SelectsLow` — the two inductive invariants that tie the stage to the clock's phase when
  the limit outlasts the tail.

The three thresholds on the limit that decide how good the strobe is all come from the tail: a single
strobe needs `tail + 1`, a release inside the low phase `tail + 2`, and one access per clock period
`tail + 3`.
-/

namespace Sync

/-! ### The controller -/

/-- Where the controller stands; `hold left` still holds for `left` cycles after this one. -/
inductive Stage where
  | idle
  | waitLow
  | waitHigh
  | waitFall
  | hold (left : ℕ)
  deriving DecidableEq, Repr

namespace Stage

/-- The stage after one edge, on the level the clock shows before it. -/
def next (tail : ℕ) (request level : Bool) : Stage → Stage
  | idle => if request then waitLow else idle
  | waitLow => if level then waitLow else waitHigh
  | waitHigh => if level then waitFall else waitHigh
  | waitFall => if level then waitFall else hold tail
  | hold 0 => idle
  | hold (left + 1) => hold left

/-- The stages in which the device is selected. -/
def selected : Stage → Bool
  | idle | waitLow => false
  | waitHigh | waitFall | hold _ => true

/-- The level a waiting stage waits for, and the stage it then moves to. -/
def awaits (tail : ℕ) : Stage → Option (Bool × Stage)
  | waitLow => some (false, waitHigh)
  | waitHigh => some (true, waitFall)
  | waitFall => some (false, hold tail)
  | idle | hold _ => none

theorem next_of_awaits {tail : ℕ} {s t : Stage} {w : Bool} (h : s.awaits tail = some (w, t))
    (request : Bool) : s.next tail request w = t := by
  cases s <;> simp_all [awaits, next]

theorem next_of_awaits_not {tail : ℕ} {s t : Stage} {w : Bool} (h : s.awaits tail = some (w, t))
    (request : Bool) : s.next tail request (!w) = s := by
  cases s <;> simp_all [awaits, next]

theorem ne_idle_of_awaits {tail : ℕ} {s t : Stage} {w : Bool} (h : s.awaits tail = some (w, t)) :
    s ≠ idle := by
  intro hs
  rw [hs] at h
  cases h

end Stage

/-- Controller, clock, and the limit in force. -/
@[ext] structure Strober where
  stage : Stage
  clock : Divider
  limit : ℕ
  deriving DecidableEq, Repr

namespace Strober

/-- The inputs of one cycle: a request, read in `idle`, and the limit of the next cycle, read in an
idle cycle without a request. -/
structure Input where
  request : Bool
  reload : ℕ

/-- One clock edge. -/
def step (tail : ℕ) (s : Strober) (i : Input) : Strober where
  stage := s.stage.next tail i.request s.clock.level
  clock := s.clock.tick s.limit
  limit := if s.stage = .idle ∧ i.request = false then i.reload else s.limit

theorem step_clock (tail : ℕ) (s : Strober) (i : Input) :
    (step tail s i).clock = s.clock.tick s.limit := rfl

theorem step_busy (tail : ℕ) (i : Input) {st : Stage} (d : Divider) (F : ℕ) (h : st ≠ .idle) :
    step tail ⟨st, d, F⟩ i = ⟨st.next tail i.request d.level, d.tick F, F⟩ := by
  simp [step, h]

theorem step_request (tail : ℕ) (i : Input) (d : Divider) (F : ℕ) (h : i.request = true) :
    step tail ⟨.idle, d, F⟩ i = ⟨.waitLow, d.tick F, F⟩ := by
  simp [step, h, Stage.next]

end Strober

/-- The clock of a strober is a divided clock under the limits in force. -/
theorem isRun_clock {tail : ℕ} {x : ℕ → Strober} {inp : ℕ → Strober.Input}
    (hx : IsRun (Strober.step tail) x inp) :
    IsRun (fun d F => Divider.tick F d) (fun n => (x n).clock) (fun n => (x n).limit) :=
  fun n => congrArg Strober.clock (hx n)

/-! ### Waiting on the level -/

section Waits

variable {tail : ℕ} {x : ℕ → Strober} {inp : ℕ → Strober.Input}

/-- A stage that waits for the level `w` while the clock shows `!w` stays, the count runs up to the
limit, and the level toggles under it. -/
theorem wait_until (hx : IsRun (Strober.step tail) x inp) {n c F : ℕ} {w : Bool} {s t : Stage}
    (hs : s.awaits tail = some (w, t)) (hn : x n = ⟨s, ⟨!w, c⟩, F⟩) :
    (∀ j, j ≤ F - c → x (n + j) = ⟨s, ⟨!w, c + j⟩, F⟩) ∧
      x (n + (F - c) + 1) = ⟨s, ⟨w, 0⟩, F⟩ := by
  have hstay : ∀ j, j ≤ F - c → x (n + j) = ⟨s, ⟨!w, c + j⟩, F⟩ := by
    intro j
    induction j with
    | zero => intro _; exact hn
    | succ j ih =>
      intro hj
      rw [← Nat.add_assoc, hx (n + j), ih (by omega),
        Strober.step_busy _ _ _ _ (Stage.ne_idle_of_awaits hs), Stage.next_of_awaits_not hs,
        Divider.tick_of_lt _ (by omega), Nat.add_assoc]
  refine ⟨hstay, ?_⟩
  rw [hx (n + (F - c)), hstay _ le_rfl, Strober.step_busy _ _ _ _ (Stage.ne_idle_of_awaits hs),
    Stage.next_of_awaits_not hs, Divider.tick_of_le _ (by omega), Bool.not_not]

/-- A stage that waits for the level `w` while the clock shows it moves on at once, and its successor,
which waits for `!w`, stays until the level toggles. -/
theorem wait_cross (hx : IsRun (Strober.step tail) x inp) {n c F : ℕ} {w : Bool} {s t u : Stage}
    (hs : s.awaits tail = some (w, t)) (ht : t.awaits tail = some (!w, u))
    (hn : x n = ⟨s, ⟨w, c⟩, F⟩) :
    (∀ j, 0 < j → j ≤ F - c → x (n + j) = ⟨t, ⟨w, c + j⟩, F⟩) ∧
      x (n + (F - c) + 1) = ⟨t, ⟨!w, 0⟩, F⟩ := by
  have hstep : x (n + 1) = ⟨t, Divider.tick F ⟨w, c⟩, F⟩ := by
    rw [hx n, hn, Strober.step_busy _ _ _ _ (Stage.ne_idle_of_awaits hs), Stage.next_of_awaits hs]
  rcases Nat.lt_or_ge c F with hlt | hge
  · rw [Divider.tick_of_lt _ hlt] at hstep
    obtain ⟨hstay, htoggle⟩ := wait_until hx (w := !w) ht (by rw [hstep, Bool.not_not])
    rw [Bool.not_not] at hstay
    constructor
    · intro j hj hle
      obtain ⟨j, rfl⟩ := Nat.exists_eq_succ_of_ne_zero (Nat.ne_of_gt hj)
      have := hstay j (by omega)
      rwa [show n + 1 + j = n + j.succ by omega, show c + 1 + j = c + j.succ by omega] at this
    · rwa [show n + 1 + (F - (c + 1)) + 1 = n + (F - c) + 1 by omega] at htoggle
  · rw [Divider.tick_of_le _ hge] at hstep
    have hzero : F - c = 0 := by omega
    rw [hzero]
    exact ⟨fun j hj hle => by omega, hstep⟩

/-- The hold cycles run down whatever the clock does. -/
theorem hold_run (hx : IsRun (Strober.step tail) x inp) {n l : ℕ}
    (hn : (x n).stage = .hold l) :
    (∀ j, j ≤ l → (x (n + j)).stage = .hold (l - j)) ∧ (x (n + l + 1)).stage = .idle := by
  have hhold : ∀ j, j ≤ l → (x (n + j)).stage = .hold (l - j) := by
    intro j
    induction j with
    | zero => intro _; exact hn
    | succ j ih =>
      intro hj
      have hst := ih (by omega)
      rw [show l - j = l - (j + 1) + 1 by omega] at hst
      rw [← Nat.add_assoc, hx (n + j), Strober.step, hst]
      rfl
  refine ⟨hhold, ?_⟩
  have hst := hhold l le_rfl
  rw [Nat.sub_self] at hst
  rw [hx (n + l), Strober.step, hst]
  rfl

/-- From a request on, the limit stays for as long as the controller is busy. -/
theorem limit_run (hx : IsRun (Strober.step tail) x inp) {m : ℕ} (hreq : (inp 0).request = true)
    (hbusy : ∀ k, 0 < k → k < m → (x k).stage ≠ .idle) :
    ∀ k, k ≤ m → (x k).limit = (x 0).limit := by
  intro k hk
  refine frame_run (f := fun k => (x k).limit) (Nat.zero_le k) fun j _ hlt => ?_
  rw [hx j, Strober.step]
  refine if_neg ?_
  intro hall
  obtain ⟨hidle, hno⟩ := hall
  rcases Nat.eq_zero_or_pos j with rfl | hpos
  · rw [hreq] at hno
    cases hno
  · exact hbusy j hpos (by omega) hidle

/-- While the limit stays `F`, the clock counts up to it and toggles. -/
theorem clock_run (hx : IsRun (Strober.step tail) x inp) {n c F m : ℕ} {b : Bool}
    (hn : (x n).clock = ⟨b, c⟩) (hF : ∀ j, j < m → (x (n + j)).limit = F) :
    (∀ j, j ≤ m → j ≤ F - c → (x (n + j)).clock = ⟨b, c + j⟩) ∧
      (F - c < m → (x (n + (F - c) + 1)).clock = ⟨!b, 0⟩) := by
  have hcount : ∀ j, j ≤ m → j ≤ F - c → (x (n + j)).clock = ⟨b, c + j⟩ := by
    intro j hm hj
    refine count_up (isRun_clock hx) hn (fun i hi => ?_) j le_rfl
    show c + i < (x (n + i)).limit
    rw [hF i (by omega)]
    omega
  refine ⟨hcount, fun hm => ?_⟩
  rw [hx (n + (F - c)), Strober.step_clock, hcount _ (by omega) le_rfl, hF _ hm,
    Divider.tick_of_le _ (by omega)]

end Waits

/-! ### The course of one access -/

/-- The cycle, counted from the request, in which the device is selected at the end: the first low one
after the request, for a clock that shows level `b` and count `c` under the request. -/
def selectAt (b : Bool) (c F : ℕ) : ℕ :=
  if b then F - c + 1 else if c < F then 1 else F + 2

/-- The first high cycle after that one. -/
def riseAt (b : Bool) (c F : ℕ) : ℕ :=
  if b then F - c + 1 + (F + 1) else if c < F then F - c + 1 else 2 * F + 3

theorem selectAt_of_low {c F : ℕ} (h : c < F) : selectAt false c F = 1 := by
  simp [selectAt, h]

theorem riseAt_of_low {c F : ℕ} (h : c < F) : riseAt false c F = F - c + 1 := by
  simp [riseAt, h]

/-- **One access, cycle by cycle**, in a run whose cycle `0` holds the request: the wait for a low level
up to cycle `sel`, the selected low cycles, the high phase from `rise` to `rise + F`, the fall, the hold
cycles, and the idle cycle that ends it. -/
structure Timeline (tail F sel rise : ℕ) (x : ℕ → Strober) : Prop where
  sel_pos : 0 < sel
  sel_lt_rise : sel < rise
  waits : ∀ k, 0 < k → k < sel → (x k).stage = .waitLow ∧ (x k).clock.level = true
  selects : (x sel).stage = .waitLow ∧ (x sel).clock.level = false
  lows : ∀ k, sel < k → k < rise → (x k).stage = .waitHigh ∧ (x k).clock.level = false
  rises : (x rise).stage = .waitHigh ∧ (x rise).clock = ⟨true, 0⟩
  highs : ∀ k, rise < k → k ≤ rise + F → (x k).stage = .waitFall ∧ (x k).clock.level = true
  falls : (x (rise + F + 1)).stage = .waitFall ∧ (x (rise + F + 1)).clock = ⟨false, 0⟩
  holds : ∀ j, j ≤ tail → (x (rise + F + 2 + j)).stage = .hold (tail - j)
  done : (x (rise + F + tail + 3)).stage = .idle

namespace Timeline

variable {tail F sel rise : ℕ} {x : ℕ → Strober}

/-- The stage in every cycle after the request, in one expression. -/
theorem stage_eq (h : Timeline tail F sel rise x) {k : ℕ} (hk : 0 < k)
    (hle : k ≤ rise + F + tail + 3) :
    (x k).stage =
      if k ≤ sel then .waitLow else if k ≤ rise then .waitHigh else if k ≤ rise + F + 1 then .waitFall
      else if k ≤ rise + F + tail + 2 then .hold (tail - (k - (rise + F + 2))) else .idle := by
  split_ifs with h1 h2 h3 h4
  · rcases Nat.eq_or_lt_of_le h1 with rfl | hlt
    · exact h.selects.1
    · exact (h.waits k hk hlt).1
  · rcases Nat.eq_or_lt_of_le h2 with rfl | hlt
    · exact h.rises.1
    · exact (h.lows k (by omega) hlt).1
  · rcases Nat.eq_or_lt_of_le h3 with rfl | hlt
    · exact h.falls.1
    · exact (h.highs k (by omega) (by omega)).1
  · have := h.holds (k - (rise + F + 2)) (by omega)
    rwa [show rise + F + 2 + (k - (rise + F + 2)) = k by omega] at this
  · obtain rfl : k = rise + F + tail + 3 := by omega
    exact h.done

/-- Between the request and the end, the device is selected exactly after cycle `sel`. -/
theorem selected_iff (h : Timeline tail F sel rise x) {k : ℕ} (hk : 0 < k)
    (hle : k ≤ rise + F + tail + 3) :
    (x k).stage.selected = true ↔ sel < k ∧ k ≤ rise + F + tail + 2 := by
  have hsel := h.sel_lt_rise
  rw [h.stage_eq hk hle]
  split_ifs <;> simp only [Stage.selected, Bool.false_eq_true, true_iff, false_iff] <;> omega

/-- The wait for a high level lasts from there to the rise. -/
theorem waitHigh_iff (h : Timeline tail F sel rise x) {k : ℕ} (hk : 0 < k)
    (hle : k ≤ rise + F + tail + 3) : (x k).stage = .waitHigh ↔ sel < k ∧ k ≤ rise := by
  have hsel := h.sel_lt_rise
  rw [h.stage_eq hk hle]
  split_ifs <;> simp only [true_iff, false_iff] <;> omega

/-- The wait for the fall lasts from the rise to the fall. -/
theorem waitFall_iff (h : Timeline tail F sel rise x) {k : ℕ} (hk : 0 < k)
    (hle : k ≤ rise + F + tail + 3) :
    (x k).stage = .waitFall ↔ rise < k ∧ k ≤ rise + F + 1 := by
  have hsel := h.sel_lt_rise
  rw [h.stage_eq hk hle]
  split_ifs <;> simp only [true_iff, false_iff] <;> omega

/-- The controller is idle again only at the end. -/
theorem busy (h : Timeline tail F sel rise x) {k : ℕ} (hk : 0 < k)
    (hlt : k < rise + F + tail + 3) : (x k).stage ≠ .idle := by
  rw [h.stage_eq hk (by omega)]
  split_ifs <;> simp only [Ne, reduceCtorEq, not_false_eq_true, not_true_eq_false]
  omega

/-- From the select cycle to the fall, the level is high exactly from `rise` on. -/
theorem level_iff (h : Timeline tail F sel rise x) {k : ℕ} (hk : sel ≤ k)
    (hle : k ≤ rise + F + 1) :
    (x k).clock.level = true ↔ rise ≤ k ∧ k ≤ rise + F := by
  have hsel := h.sel_lt_rise
  rcases Nat.eq_or_lt_of_le hk with rfl | hgt
  · simp [h.selects.2]
    omega
  · rcases lt_trichotomy k rise with hlt | rfl | hgt'
    · simp [(h.lows k hgt hlt).2]
      omega
    · simp [h.rises.2]
    · rcases Nat.lt_or_ge (rise + F) k with hF | hF
      · obtain rfl : k = rise + F + 1 := by omega
        simp [h.falls.2]
      · simp [(h.highs k hgt' hF).2]
        omega

end Timeline

section Course

variable {tail : ℕ} {x : ℕ → Strober} {inp : ℕ → Strober.Input}

/-- The first wait: it ends in cycle `selectAt`, with a count from which the level rises in cycle
`riseAt`. -/
theorem select_run (hx : IsRun (Strober.step tail) x inp) {b : Bool} {c F : ℕ}
    (h0 : x 0 = ⟨.idle, ⟨b, c⟩, F⟩) (hreq : (inp 0).request = true) :
    (∃ cs, x (selectAt b c F) = ⟨.waitLow, ⟨false, cs⟩, F⟩ ∧
      selectAt b c F + (F - cs) + 1 = riseAt b c F) ∧
    ∀ k, 0 < k → k < selectAt b c F → ∃ c', x k = ⟨.waitLow, ⟨true, c'⟩, F⟩ := by
  have hstep : x (0 + 1) = ⟨.waitLow, Divider.tick F ⟨b, c⟩, F⟩ := by
    rw [hx 0, h0, Strober.step_request _ _ _ _ hreq]
  have hawait : Stage.awaits tail .waitLow = some (false, .waitHigh) := rfl
  rcases Nat.lt_or_ge c F with hlt | hge
  · rw [Divider.tick_of_lt _ hlt] at hstep
    cases b with
    | true =>
      obtain ⟨hstay, htoggle⟩ := wait_until hx (w := false) hawait hstep
      rw [show 0 + 1 + (F - (c + 1)) + 1 = F - c + 1 by omega] at htoggle
      refine ⟨⟨0, htoggle, by simp [selectAt, riseAt]; omega⟩, fun k hk hsel => ?_⟩
      simp only [selectAt, if_true] at hsel
      have := hstay (k - 1) (by omega)
      rw [show 0 + 1 + (k - 1) = k by omega] at this
      exact ⟨_, this⟩
    | false =>
      refine ⟨⟨c + 1, ?_, ?_⟩, fun k hk hsel => ?_⟩
      · simpa [selectAt, hlt] using hstep
      · simp [selectAt, riseAt, hlt]; omega
      · simp [selectAt, hlt] at hsel
        omega
  · rw [Divider.tick_of_le _ hge] at hstep
    cases b with
    | true =>
      have hzero : F - c = 0 := by omega
      refine ⟨⟨0, ?_, by simp [selectAt, riseAt]; omega⟩, fun k hk hsel => ?_⟩
      · simpa [selectAt, hzero] using hstep
      · simp [selectAt, hzero] at hsel
        omega
    | false =>
      obtain ⟨hstay, htoggle⟩ := wait_until hx (w := false) hawait hstep
      have hsel : selectAt false c F = F + 2 := by simp [selectAt, Nat.not_lt.mpr hge]
      rw [hsel]
      rw [show 0 + 1 + (F - 0) + 1 = F + 2 by omega] at htoggle
      refine ⟨⟨0, htoggle, by simp [riseAt, Nat.not_lt.mpr hge]; omega⟩, fun k hk hlt => ?_⟩
      have := hstay (k - 1) (by omega)
      rw [show 0 + 1 + (k - 1) = k by omega] at this
      exact ⟨_, this⟩

/-- **The course of an access, from any phase of the clock.** -/
theorem timeline (hx : IsRun (Strober.step tail) x inp) {b : Bool} {c F : ℕ}
    (h0 : x 0 = ⟨.idle, ⟨b, c⟩, F⟩) (hreq : (inp 0).request = true) :
    Timeline tail F (selectAt b c F) (riseAt b c F) x := by
  obtain ⟨⟨cs, hsel, hrise⟩, hwait⟩ := select_run hx h0 hreq
  -- the select cycle passes the first wait, the rise the second
  obtain ⟨hlow, hup⟩ := wait_cross hx (w := false) (s := .waitLow) rfl
    (u := .waitFall) rfl hsel
  rw [hrise] at hup
  obtain ⟨hhigh, hdown⟩ := wait_cross hx (w := true) (s := .waitHigh) rfl
    (u := .hold tail) rfl hup
  have hfirst : x (riseAt b c F + F + 2) = ⟨.hold tail, Divider.tick F ⟨false, 0⟩, F⟩ := by
    rw [show riseAt b c F + F + 2 = riseAt b c F + (F - 0) + 1 + 1 by omega, hx, hdown]
    rw [Strober.step_busy _ _ _ _ (by simp)]
    rfl
  obtain ⟨hhold, hidle⟩ := hold_run hx (l := tail) (by rw [hfirst])
  have hpos : 0 < selectAt b c F := by
    unfold selectAt
    split <;> [skip; split] <;> omega
  refine ⟨hpos, by omega, ?_, ?_, ?_, ?_, ?_, ?_, ?_, ?_⟩
  · intro k hk hlt
    obtain ⟨c', hc'⟩ := hwait k hk hlt
    rw [hc']
    exact ⟨rfl, rfl⟩
  · rw [hsel]
    exact ⟨rfl, rfl⟩
  · intro k hk hlt
    have := hlow (k - selectAt b c F) (by omega) (by omega)
    rw [show selectAt b c F + (k - selectAt b c F) = k by omega] at this
    rw [this]
    exact ⟨rfl, rfl⟩
  · rw [hup]
    exact ⟨rfl, rfl⟩
  · intro k hk hle
    have := hhigh (k - riseAt b c F) (by omega) (by omega)
    rw [show riseAt b c F + (k - riseAt b c F) = k by omega] at this
    rw [this]
    exact ⟨rfl, rfl⟩
  · rw [show riseAt b c F + F + 1 = riseAt b c F + (F - 0) + 1 by omega, hdown]
    exact ⟨rfl, rfl⟩
  · exact hhold
  · rw [show riseAt b c F + F + tail + 3 = riseAt b c F + F + 2 + tail + 1 by omega]
    exact hidle

/-- After the fall the level stays low for as long as the count allows, and then rises again: the hold
cycles and the idle cycle after them do not touch the clock. -/
theorem after_fall (hx : IsRun (Strober.step tail) x inp) (hreq : (inp 0).request = true)
    {F sel rise : ℕ} (hF : (x 0).limit = F) (h : Timeline tail F sel rise x) :
    (∀ j, j ≤ F → j ≤ tail + 3 → (x (rise + F + 1 + j)).clock = ⟨false, j⟩) ∧
      (F < tail + 3 → (x (rise + F + 1 + F + 1)).clock = ⟨true, 0⟩) := by
  have hlim := limit_run hx hreq (m := rise + F + tail + 3) (fun k hk hlt => h.busy hk hlt)
  obtain ⟨hcount, htoggle⟩ := clock_run hx (m := tail + 3) h.falls.2
    (fun j hj => (hlim (rise + F + 1 + j) (by omega)).trans hF)
  constructor
  · intro j hj hm
    rw [hcount j hm hj, Nat.zero_add]
  · exact fun hm => htoggle hm

/-- **A single strobe.**  The selected cycles hold no high cycle outside the one full high phase exactly
when the limit is at least the number of hold cycles. -/
theorem single_strobe_iff (hx : IsRun (Strober.step tail) x inp) (hreq : (inp 0).request = true)
    {F sel rise : ℕ} (hF : (x 0).limit = F) (h : Timeline tail F sel rise x) :
    (∀ k, sel < k → k ≤ rise + F + tail + 2 →
        ((x k).clock.level = true ↔ rise ≤ k ∧ k ≤ rise + F)) ↔ tail + 1 ≤ F := by
  obtain ⟨hlow, hhigh⟩ := after_fall hx hreq hF h
  constructor
  · intro hall
    by_contra hlt
    have hsecond := (hall (rise + F + 1 + F + 1) (by have := h.sel_lt_rise; omega) (by omega)).mp
      (by rw [hhigh (by omega)])
    omega
  · intro hle k hk hend
    rcases Nat.lt_or_ge (rise + F + 1) k with hgt | hle'
    · have := hlow (k - (rise + F + 1)) (by omega) (by omega)
      rw [show rise + F + 1 + (k - (rise + F + 1)) = k by omega] at this
      simp [this]
      omega
    · exact h.level_iff (by omega) hle'

end Course

/-! ### Invariants that tie the stage to the phase -/

/-- The phase of the clock in each stage, when the limit outlasts the tail: a waiting stage that sees
its level sees it in the first cycle, and the hold cycles are the first of the low phase. -/
def InPhase (tail : ℕ) (s : Strober) : Prop :=
  match s.stage with
  | .idle | .waitLow => True
  | .waitHigh => s.clock.level = true → s.clock.count = 0
  | .waitFall => s.clock.level = false → s.clock.count = 0
  | .hold left => left ≤ tail ∧ s.clock = ⟨false, tail - left + 1⟩

/-- One edge keeps the phase, if the limit outlasts the tail while the controller is busy. -/
theorem inPhase_step {tail : ℕ} {s : Strober} (i : Strober.Input) (h : InPhase tail s)
    (hlim : s.stage ≠ .idle → tail + 1 ≤ s.limit) : InPhase tail (Strober.step tail s i) := by
  obtain ⟨st, ⟨b, c⟩, F⟩ := s
  cases st with
  | idle => cases hr : i.request <;> simp [Strober.step, Stage.next, InPhase, hr]
  | waitLow =>
    cases b with
    | true => simp [Strober.step, Stage.next, InPhase]
    | false =>
      simp only [Strober.step, Stage.next, InPhase, Divider.tick, Bool.false_eq_true, if_false]
      split <;> simp
  | waitHigh =>
    have hF := hlim (by simp)
    cases b with
    | true =>
      have hc : c = 0 := h rfl
      subst hc
      simp only at hF
      simp [Strober.step, Stage.next, InPhase, Divider.tick_of_lt true (show 0 < F by omega)]
    | false =>
      simp only [Strober.step, Stage.next, InPhase, Divider.tick, Bool.false_eq_true, if_false]
      split <;> simp
  | waitFall =>
    have hF := hlim (by simp)
    cases b with
    | true =>
      simp only [Strober.step, Stage.next, InPhase, Divider.tick, if_true]
      split <;> simp
    | false =>
      have hc : c = 0 := h rfl
      subst hc
      simp only at hF
      simp [Strober.step, Stage.next, InPhase, Divider.tick_of_lt false (show 0 < F by omega)]
  | hold left =>
    have hF := hlim (by simp)
    obtain ⟨hleft, hclock⟩ := h
    simp only [Divider.mk.injEq] at hleft hclock hF
    obtain ⟨rfl, rfl⟩ := hclock
    cases left with
    | zero => simp [Strober.step, Stage.next, InPhase]
    | succ left =>
      simp only [Strober.step, Stage.next, InPhase]
      rw [Divider.tick_of_lt false (by omega)]
      refine ⟨by omega, ?_⟩
      rw [show tail - (left + 1) + 1 + 1 = tail - left + 1 by omega]

/-- The wait for a low level never passes in the last cycle of a low phase. -/
def SelectsLow (s : Strober) : Prop :=
  s.stage = .waitLow → s.clock.level = false → s.clock.count < s.limit

/-- One edge keeps that, unless it takes a request in the last low cycle but one. -/
theorem selectsLow_step {tail : ℕ} {s : Strober} (i : Strober.Input)
    (hlim : s.stage ≠ .idle ∨ i.request = true → 0 < s.limit)
    (hreq : s.stage = .idle → i.request = true →
      ¬(s.clock.level = false ∧ s.clock.count + 1 = s.limit)) :
    SelectsLow (Strober.step tail s i) := by
  obtain ⟨st, ⟨b, c⟩, F⟩ := s
  cases st with
  | idle =>
    cases hr : i.request with
    | false => simp [Strober.step, Stage.next, SelectsLow, hr]
    | true =>
      have hF := hlim (Or.inr hr)
      have hlast := hreq rfl hr
      rw [Strober.step_request _ _ _ _ hr]
      intro _ hlow
      rcases Nat.lt_or_ge c F with hlt | hge
      · rw [Divider.tick_of_lt _ hlt] at hlow ⊢
        exact Nat.lt_of_le_of_ne hlt fun heq => hlast ⟨hlow, heq⟩
      · rw [Divider.tick_of_le _ hge]
        exact hF
  | waitLow =>
    have hF := hlim (Or.inl (by simp))
    rw [Strober.step_busy _ _ _ _ (by simp)]
    cases b with
    | false => simp [SelectsLow, Stage.next]
    | true =>
      intro _ hlow
      rcases Nat.lt_or_ge c F with hlt | hge
      · rw [Divider.tick_of_lt _ hlt] at hlow
        cases hlow
      · rw [Divider.tick_of_le _ hge]
        exact hF
  | waitHigh => cases b <;> simp [Strober.step, Stage.next, SelectsLow]
  | waitFall => cases b <;> simp [Strober.step, Stage.next, SelectsLow]
  | hold left => cases left <;> simp [Strober.step, Stage.next, SelectsLow]

section Run

variable {tail : ℕ} {x : ℕ → Strober} {inp : ℕ → Strober.Input}

/-- A bound on the limit that every request meets holds whenever the controller is busy. -/
theorem busy_limit (hx : IsRun (Strober.step tail) x inp) {m : ℕ} (h0 : (x 0).stage = .idle)
    (hreq : ∀ n, (x n).stage = .idle → (inp n).request = true → m ≤ (x n).limit) (n : ℕ) :
    (x n).stage ≠ .idle → m ≤ (x n).limit := by
  induction n with
  | zero => exact fun h => absurd h0 h
  | succ n ih =>
    intro hbusy
    rw [hx n] at hbusy ⊢
    by_cases hidle : (x n).stage = .idle
    · cases hr : (inp n).request with
      | false => simp [Strober.step, Stage.next, hidle, hr] at hbusy
      | true => simpa [Strober.step, hr] using hreq n hidle hr
    · simpa [Strober.step, hidle] using ih hidle

theorem inPhase_run (hx : IsRun (Strober.step tail) x inp) (h0 : (x 0).stage = .idle)
    (hlim : ∀ n, (x n).stage ≠ .idle → tail + 1 ≤ (x n).limit) (n : ℕ) : InPhase tail (x n) := by
  induction n with
  | zero => simp [InPhase, h0]
  | succ n ih =>
    rw [hx n]
    exact inPhase_step (inp n) ih (hlim n)

theorem selectsLow_run (hx : IsRun (Strober.step tail) x inp) (h0 : (x 0).stage = .idle)
    (hlim : ∀ n, (x n).stage ≠ .idle ∨ (inp n).request = true → 0 < (x n).limit)
    (hreq : ∀ n, (x n).stage = .idle → (inp n).request = true →
      ¬((x n).clock.level = false ∧ (x n).clock.count + 1 = (x n).limit)) (n : ℕ) :
    SelectsLow (x n) := by
  cases n with
  | zero => simp [SelectsLow, h0]
  | succ n =>
    rw [hx n]
    exact selectsLow_step (inp n) (hlim n) (hreq n)

end Run

end Sync
