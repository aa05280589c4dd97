import SidBridge.Transfers

/-!
# Which accesses have a transfer behind them

A slave may take an address phase when it is selected, `HTRANS` shows a transfer and `HREADYIN` ends the
data phase before it.  The bridge looks at `HSEL` alone.  Whatever it carries out goes back to an edge of
its own, in order and once each; what that edge may lack is the other two conditions.

* `acceptedEdge` — an address phase as the bus means it;
* `AccessBegins`, `accessBegins_iff` — the edges at which the bridge starts an access, and what they look
  at;
* `run_succ_of_unselected` — an idle bridge that is not selected moves its clock divider and nothing else;
* `NoPhantom`, `noPhantom_iff` — every access, and every change of the registers and of `HRDATA`, has an
  accepted transfer of its own exactly when `st_idle` never meets a selection without one.
-/

namespace SidBridge

/-- The bus completes an address phase of this slave. -/
def acceptedEdge (i : Ports) : Bool := i.HRESETN && i.HSEL && i.htrans1 && i.HREADYIN

/-- A departure from `st_idle`, or a load of `HRDATA` in it: one that changes it, or the answer to a
register read. -/
def AccessBegins (inp : ℕ → Ports) (n : ℕ) : Prop :=
  (run inp n).state = .stIdle ∧
    ((run inp (n + 1)).state ≠ .stIdle ∨
      (inp n).HRESETN = true ∧ ((run inp (n + 1)).HRDATA ≠ (run inp n).HRDATA ∨
        executed (run inp n) (inp n) ≠ none))

/-- Every access begins at an accepted transfer, different accesses at different ones and in their order;
a write has the data of its own transfer.  What is carried out has its effect, and the registers and `HRDATA`
change by nothing else; an idle bridge that meets no accepted transfer moves its clock divider alone. -/
structure NoPhantom (inp : ℕ → Ports) : Prop where
  begins : ∀ n, AccessBegins inp n → acceptedEdge (inp n) = true
  source : ∃ origin : ℕ → ℕ,
    (∀ n t, executed (run inp n) (inp n) = some t →
      acceptedEdge (inp (origin n)) = true ∧ Sourced inp (origin n) n t) ∧
    ∀ m n, m < n → executed (run inp m) (inp m) ≠ none → executed (run inp n) (inp n) ≠ none →
      origin m < origin n
  accounted : ∀ n, (inp n).HRESETN = true → Accounted inp n
  frame : ∀ n, (inp n).HRESETN = true → (run inp n).state = .stIdle → acceptedEdge (inp n) = false →
    run inp (n + 1) = clockDivider (run inp n)

/-- An idle bridge that is not selected moves its clock divider, and nothing else. -/
theorem run_succ_of_unselected {inp : ℕ → Ports} {n : ℕ} (hrst : (inp n).HRESETN = true)
    (hs : (run inp n).state = .stIdle) (hsel : (inp n).HSEL = false) :
    run inp (n + 1) = clockDivider (run inp n) := by
  have hoe : (run inp n).sidDataOe = false := by
    rw [(busSafe_run inp n).oe, hs]
    rfl
  rw [run_succ, nextReg_eq _ hrst, clockDivider_eq]
  simp [nextState, sidRequest, registerWrite, registerRead, readCapture, registerUpdate, selectEdge,
    releaseEdge, driveEdge, hs, hsel, hoe]

/-- **The bridge starts an access whenever it is selected in `st_idle`**, and at no other time. -/
theorem accessBegins_iff (inp : ℕ → Ports) (n : ℕ) :
    AccessBegins inp n ↔ taken (run inp n) (inp n) = true := by
  rw [taken_iff, AccessBegins]
  constructor
  · intro hall
    obtain ⟨hs, hstart⟩ := hall
    have hrst : (inp n).HRESETN = true := by
      rcases hstart with hleaves | ⟨hrst, -⟩
      · by_contra hreset
        rw [run_succ, nextReg_reset _ (by simpa using hreset)] at hleaves
        exact hleaves rfl
      · exact hrst
    refine ⟨hrst, hs, ?_⟩
    by_contra hsel
    have hframe := run_succ_of_unselected hrst hs (by simpa using hsel)
    rcases hstart with hleaves | ⟨-, hload | hexec⟩
    · rw [hframe, clockDivider_eq] at hleaves
      exact hleaves hs
    · rw [hframe, clockDivider_eq] at hload
      exact hload rfl
    · exact hexec (executed_none (by simp [taken, hsel]) (by rw [hs]; rfl))
  · intro hall
    obtain ⟨hrst, hs, hsel⟩ := hall
    refine ⟨hs, ?_⟩
    rcases inProgress_of_taken (taken_iff.mpr ⟨hrst, hs, hsel⟩) with ⟨-, hpend, -⟩ | ⟨hsome, -, -⟩
    · left
      intro hidle
      rw [← run_succ, hidle] at hpend
      cases hpend
    · exact Or.inr ⟨hrst, Or.inr (by simp [hsome])⟩

/-- **Exactly when every access has a transfer behind it**: a selection of the bridge in `st_idle` must
always be a transfer in a ready cycle. -/
theorem noPhantom_iff (inp : ℕ → Ports) :
    NoPhantom inp ↔
      ∀ n, (inp n).HRESETN = true → (run inp n).state = .stIdle → (inp n).HSEL = true →
        (inp n).htrans1 = true ∧ (inp n).HREADYIN = true := by
  constructor
  · intro h n hrst hs hsel
    have hbegins := h.begins n ((accessBegins_iff inp n).mpr (taken_iff.mpr ⟨hrst, hs, hsel⟩))
    simp only [acceptedEdge, Bool.and_eq_true] at hbegins
    exact ⟨hbegins.1.2, hbegins.2⟩
  · intro hbus
    have haccepted : ∀ n, taken (run inp n) (inp n) = true → acceptedEdge (inp n) = true := by
      intro n htaken
      obtain ⟨hrst, hs, hsel⟩ := taken_iff.mp htaken
      obtain ⟨htrans, hready⟩ := hbus n hrst hs hsel
      simp [acceptedEdge, hrst, hsel, htrans, hready]
    refine ⟨fun n hbegins => ?_, ⟨lastTaken inp, fun n t ht => ?_, fun m n => lastTaken_lt⟩,
      fun n hrst => accounted_run hrst, fun n hrst hs hno => ?_⟩
    · exact haccepted n ((accessBegins_iff inp n).mp hbegins)
    · obtain ⟨htaken, hsource⟩ := executed_origin ht
      exact ⟨haccepted _ htaken, hsource⟩
    · cases hsel : (inp n).HSEL with
      | false => exact run_succ_of_unselected hrst hs hsel
      | true =>
        rw [haccepted n (taken_iff.mpr ⟨hrst, hs, hsel⟩)] at hno
        cases hno

/-- A master in a stalled data phase of another slave, with a SID write as its next address phase.  The
bridge is selected from cycle 0 on, with `HTRANS` gated to IDLE up to the end of the stall and with the
other slave's byte on `HWDATA`; the address phase is held until the bridge is ready for it. -/
def stalledWrite (stall ready n : ℕ) : Ports :=
  if n ≤ ready then
    { Ports.transfer 0x4060 true with
      HTRANS := if n < stall then 0b00#2 else 0b10#2
      HWDATA := 0x5A }
  else { Ports.quiet with HWDATA := 0x0F }

/-- Such a stall of four cycles, behind the bridge's own ready signal, which is back in cycle 76. -/
def stalledBus : ℕ → Ports := loopback (stalledWrite 4 76)

/-- The SID gets the other slave's byte first, and its own with the second execution of the transfer; only
the second was accepted. -/
theorem stalledBus_not_noPhantom :
    executed (run stalledBus 1) (stalledBus 1) = some (.sidWrite 0x18#5 0x5A#8) ∧
      (∀ o, o ≤ 1 → acceptedEdge (stalledBus o) = false) ∧
      executed (run stalledBus 77) (stalledBus 77) = some (.sidWrite 0x18#5 0x0F#8) ∧
      acceptedEdge (stalledBus 76) = true ∧ ¬NoPhantom stalledBus := by
  refine ⟨by decide, by decide, by decide +kernel, by decide +kernel, fun h => ?_⟩
  have hbegins := h.begins 0 ((accessBegins_iff _ 0).mpr (by decide))
  exact absurd hbegins (by decide)

end SidBridge
