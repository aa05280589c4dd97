import SidBridge.Transfers

/-!
# Which transfers are lost

A master that conforms to the bus, wired so that the bridge's own `HREADYOUT` comes back as `HREADYIN`,
sees its address phase accepted in every ready cycle.  The bridge is ready in two states and looks at the
bus in one of them: in `st_write_reg` it reports ready and samples nothing.

* `AhbMaster` — the master and its wiring;
* `accepted`, `NothingLost` — the transfers the master saw accepted, and the property;
* `delivery_step`, `delivery_sublist` — one edge of the bridge, with and without a transfer presented in
  the data cycle of a register write;
* `executed_sublist_accepted` — what is carried out is a part of what was accepted, in order;
* `nothingLost_iff` — nothing is lost exactly when nothing is presented in those cycles.
-/

namespace SidBridge

/-- What the master saw accepted at the end of cycle `n`: its data phase starts in the next cycle. -/
def accepted (inp : ℕ → Ports) (n : ℕ) : Option Transfer :=
  if (inp n).HSEL && (inp n).htrans1 && (inp n).HREADYIN then
    some (transferOf (inp n) (inp (n + 1)))
  else none

/-- What the bridge carries out along a run. -/
def executions (inp : ℕ → Ports) (n : ℕ) : Option Transfer := executed (run inp n) (inp n)

/-- A conforming master behind the bridge's own ready signal. -/
structure AhbMaster (inp : ℕ → Ports) : Prop where
  no_reset : ∀ n, (inp n).HRESETN = true
  ready_loop : ∀ n, (inp n).HREADYIN = (run inp n).HREADYOUT
  selects_transfer : ∀ n, (inp n).HSEL = true → (inp n).htrans1 = true
  address_held : ∀ n, (run inp n).HREADYOUT = false → (inp n).HSEL = true →
    (inp (n + 1)).HSEL = true ∧ (inp (n + 1)).HADDR = (inp n).HADDR ∧
      (inp (n + 1)).HTRANS = (inp n).HTRANS ∧ (inp (n + 1)).HWRITE = (inp n).HWRITE
  data_held : ∀ a, (accepted inp a).isSome = true → (inp a).HWRITE = true → ∀ k, a < k →
    (∀ j, a < j → j ≤ k → (run inp j).HREADYOUT = false) → (inp k).HWDATA = (inp (a + 1)).HWDATA

/-- **Nothing is lost**: what is carried out is what was accepted, in order, less one transfer that may
still be in progress; it has its effect, and the registers and `HRDATA` change by nothing else. -/
structure NothingLost (inp : ℕ → Ports) : Prop where
  in_order : ∀ n, ∃ p, Sync.events (accepted inp) n = Sync.events (executions inp) n ++ p ∧
    p.length ≤ 1 ∧ (p ≠ [] → (run inp n).state ≠ .stIdle)
  accounted : ∀ n, Accounted inp n

namespace AhbMaster

variable {inp : ℕ → Ports} (h : AhbMaster inp)

include h

/-- What the bridge takes was accepted. -/
theorem accepted_of_taken {n : ℕ} (htaken : taken (run inp n) (inp n) = true) :
    accepted inp n = some (transferOf (inp n) (inp (n + 1))) := by
  obtain ⟨-, hs, hsel⟩ := taken_iff.mp htaken
  have hready := (busSafe_run inp n).ready_of (Or.inl hs)
  simp [accepted, hsel, h.selects_transfer n hsel, h.ready_loop n, hready]

/-- Nothing is accepted while the bridge asks for more time. -/
theorem accepted_of_not_ready {n : ℕ} (hready : (run inp n).HREADYOUT = false) :
    accepted inp n = none := by
  simp [accepted, h.ready_loop n, hready]

/-- Nothing is accepted in `st_idle` that the bridge does not take. -/
theorem accepted_of_not_taken {n : ℕ} (hs : (run inp n).state = .stIdle)
    (htaken : ¬taken (run inp n) (inp n) = true) : accepted inp n = none := by
  have hsel : (inp n).HSEL = false := by
    by_contra hsel
    exact htaken (taken_iff.mpr ⟨h.no_reset n, hs, by simpa using hsel⟩)
  simp [accepted, hsel]

/-- The data of a transfer that stays in progress stays on the bus. -/
theorem inProgress_held {n : ℕ} (hpend : (run inp n).state.hasPending = true)
    (hsame : (run inp (n + 1)).state = (run inp n).state) :
    inProgress (run inp n) (inp (n + 1)) = inProgress (run inp n) (inp n) := by
  have hwaits := waits_lastTaken hpend
  rw [hwaits.transfer, hwaits.transfer]
  generalize lastTaken inp n = o at hwaits
  cases hw : (inp o).HWRITE with
  | false => simp [transferOf, hw]
  | true =>
    have hbusy : ∀ j, o < j → j ≤ n → (run inp j).HREADYOUT = false := by
      intro j hj hle
      refine not_ready_of_hasPending (hwaits.pending j hj hle) ?_
      rcases Nat.eq_or_lt_of_le hle with rfl | hlt
      · rw [hsame]
        exact hpend
      · exact hwaits.pending (j + 1) (by omega) hlt
    have hbusy' : (run inp (n + 1)).HREADYOUT = false := by
      rw [(busSafe_run inp (n + 1)).hreadyout, hsame, ← (busSafe_run inp n).hreadyout]
      exact hbusy n hwaits.lt le_rfl
    have haccepted : (accepted inp o).isSome = true := by
      rw [h.accepted_of_taken hwaits.taken]
      rfl
    have hnow := h.data_held o haccepted hw n hwaits.lt hbusy
    have hnext := h.data_held o haccepted hw (n + 1) (Nat.lt_succ_of_lt hwaits.lt) fun j hj hle => by
      rcases Nat.eq_or_lt_of_le hle with rfl | hlt
      · exact hbusy'
      · exact hbusy j hj (by omega)
    simp [transferOf, Ports.hwdata70, hnow, hnext]

/-- **One edge**, unless a transfer is accepted in the data cycle of a register write: what was in progress
or is accepted is carried out or in progress. -/
theorem delivery_step {n : ℕ} (hno : (run inp n).state = .stWriteReg → accepted inp n = none) :
    inProgress (run inp n) (inp n) ++ (accepted inp n).toList =
      (executions inp n).toList ++ inProgress (run inp (n + 1)) (inp (n + 1)) := by
  by_cases htaken : taken (run inp n) (inp n) = true
  · have hs := (taken_iff.mp htaken).2.1
    rw [h.accepted_of_taken htaken, inProgress_of_not_hasPending _ (by rw [hs]; rfl), executions]
    rcases inProgress_of_taken htaken with ⟨hlist, -, hnone⟩ | ⟨hsome, hwrite, hidle⟩
    · rw [run_succ, hlist, hnone]
      rfl
    · rw [run_succ, hsome, inProgress_of_not_hasPending _ (by rw [hidle]; rfl)]
      simp [transferOf, hwrite]
  by_cases hpend : (run inp n).state.hasPending = true
  · have hidle : (run inp n).state ≠ .stIdle := by
      intro hs
      rw [hs] at hpend
      cases hpend
    have hnone : accepted inp n = none := by
      by_cases hs : (run inp n).state = .stWriteReg
      · exact hno hs
      · exact h.accepted_of_not_ready ((busSafe_run inp n).not_ready_of hidle hs)
    rw [hnone, executions]
    rcases inProgress_of_hasPending (h.no_reset n) (busSafe_run inp n) hpend with
      ⟨hexec, hsame, hstay⟩ | ⟨hexec, hgone⟩
    · rw [hexec, run_succ, hstay, h.inProgress_held hpend hsame]
      exact List.append_nil _
    · rw [hexec, run_succ, inProgress_of_not_hasPending _ hgone]
      rfl
  · have hnext : (run inp (n + 1)).state.hasPending = false := by
      rw [← Bool.not_eq_true]
      intro hpend'
      exact (taken_or_hasPending hpend').elim htaken hpend
    have hnone : accepted inp n = none := by
      by_cases hs : (run inp n).state = .stIdle
      · exact h.accepted_of_not_taken hs htaken
      · refine h.accepted_of_not_ready ((busSafe_run inp n).not_ready_of hs fun hw => hpend ?_)
        rw [hw]
        rfl
    rw [Bool.not_eq_true] at hpend htaken
    rw [hnone, executions, executed_none htaken hpend, inProgress_of_not_hasPending _ hpend,
      inProgress_of_not_hasPending _ hnext]
    rfl

/-- A register write is carried out in its data cycle, and leaves nothing in progress. -/
theorem delivery_stWriteReg {n : ℕ} (hs : (run inp n).state = .stWriteReg) :
    inProgress (run inp n) (inp n) =
      (executions inp n).toList ++ inProgress (run inp (n + 1)) (inp (n + 1)) := by
  have hpend : (run inp n).state.hasPending = true := by rw [hs]; rfl
  have hidle : (run inp (n + 1)).state = .stIdle := state_nextReg_of_stWriteReg (h.no_reset n) hs
  rcases inProgress_of_hasPending (h.no_reset n) (busSafe_run inp n) hpend with
    ⟨-, hsame, -⟩ | ⟨hexec, -⟩
  · rw [← run_succ, hidle, hs] at hsame
    cases hsame
  · have hempty : inProgress (run inp (n + 1)) (inp (n + 1)) = [] :=
      inProgress_of_not_hasPending _ (by rw [hidle]; rfl)
    rw [hempty, List.append_nil]
    exact hexec.symm

/-- **One edge, whatever is accepted**: nothing is carried out that was not accepted. -/
theorem delivery_sublist (n : ℕ) :
    ((executions inp n).toList ++ inProgress (run inp (n + 1)) (inp (n + 1))).Sublist
      (inProgress (run inp n) (inp n) ++ (accepted inp n).toList) := by
  by_cases hs : (run inp n).state = .stWriteReg
  · rw [← h.delivery_stWriteReg hs]
    exact List.sublist_append_left _ _
  · have hstep := h.delivery_step fun hs' => absurd hs' hs
    simp only [hstep, List.Sublist.refl]

/-- **What is carried out is part of what was accepted**, in order, in every run of the system. -/
theorem executed_sublist_accepted (n : ℕ) :
    (Sync.events (executions inp) n ++ inProgress (run inp n) (inp n)).Sublist
      (Sync.events (accepted inp) n) :=
  Sync.events_append_pending_sublist (fun n => inProgress (run inp n) (inp n)) rfl
    h.delivery_sublist n

/-- A transfer accepted in the data cycle of a register write is lost. -/
theorem not_nothingLost {n : ℕ} (hs : (run inp n).state = .stWriteReg)
    (haccepted : accepted inp n ≠ none) : ¬NothingLost inp := by
  intro hnone
  obtain ⟨t, ht⟩ := Option.ne_none_iff_exists'.mp haccepted
  obtain ⟨p, heq, -, hp⟩ := hnone.in_order (n + 1)
  have hidle : (run inp (n + 1)).state = .stIdle := state_nextReg_of_stWriteReg (h.no_reset n) hs
  have hnil : p = [] := by
    by_contra hne
    exact hp hne hidle
  -- the write itself accounts for all that was accepted before
  have hempty : inProgress (run inp (n + 1)) (inp (n + 1)) = [] :=
    inProgress_of_not_hasPending _ (by rw [hidle]; rfl)
  have hbefore := (h.executed_sublist_accepted n).length_le
  rw [h.delivery_stWriteReg hs, hempty, List.append_nil, ← Sync.events_succ] at hbefore
  rw [hnil, List.append_nil] at heq
  rw [← heq, Sync.events_succ_some ht, List.length_append, List.length_singleton] at hbefore
  omega

end AhbMaster

/-- **Exactly when nothing is lost.**  A conforming master loses no transfer exactly when it presents none
in the cycle after the address phase of a register write. -/
theorem nothingLost_iff (inp : ℕ → Ports) (h : AhbMaster inp) :
    NothingLost inp ↔
      ∀ n, registerWrite (run inp n) (inp n) = true → (inp (n + 1)).HSEL = false := by
  constructor
  · intro hnone n hwrite
    by_contra hsel
    rw [Bool.not_eq_false] at hsel
    have hs : (run inp (n + 1)).state = .stWriteReg :=
      state_nextReg_of_registerWrite (h.no_reset n) hwrite
    refine h.not_nothingLost hs ?_ hnone
    have hready := (busSafe_run inp (n + 1)).ready_of (Or.inr hs)
    simp [accepted, hsel, h.selects_transfer _ hsel, h.ready_loop, hready]
  · intro hgap
    refine ⟨fun n => ⟨inProgress (run inp n) (inp n), ?_, inProgress_length_le_one _ _,
      fun hne hidle => ?_⟩, fun n => accounted_run (h.no_reset n)⟩
    · refine Sync.events_eq_append_pending (fun n => inProgress (run inp n) (inp n)) rfl
        (fun k => h.delivery_step fun hs => ?_) n
      cases k with
      | zero => cases hs
      | succ k =>
        rw [run_succ, state_nextReg (h.no_reset k), nextState_eq_stWriteReg_iff] at hs
        simp [accepted, hgap k hs]
    · exact hne (inProgress_of_not_hasPending _ (by rw [hidle]; rfl))

/-! ### Two writes, with and without a gap -/

/-- A write to the reset register, whose address phase is in cycle 0, and a SID write whose address phase
comes `gap` cycles after the data cycle of the first begins. -/
def writePair (gap n : ℕ) : Ports :=
  if n = 0 then Ports.transfer 0x0 true
  else if n = gap + 1 then { Ports.transfer 0xC000 true with HWDATA := 0x1 }
  else { Ports.quiet with HWDATA := if n ≤ gap then 0x1 else 0x11111111 }

theorem writePair_hsel {gap n : ℕ} (h : (writePair gap n).HSEL = true) : n = 0 ∨ n = gap + 1 := by
  unfold writePair at h
  split at h
  · exact Or.inl (by assumption)
  · split at h
    · exact Or.inr (by assumption)
    · cases h

/-- The master of these two writes conforms, if the bridge is ready when it says so. -/
theorem ahbMaster_writePair {gap : ℕ} (hdata : (run (writePair gap) 1).HREADYOUT = true)
    (hready : (run (writePair gap) (gap + 1)).HREADYOUT = true) :
    AhbMaster (loopback (writePair gap)) := by
  constructor
  · intro n
    unfold loopback writePair
    split
    · rfl
    · split <;> rfl
  · exact fun n => (congrArg RegType.HREADYOUT (run_loopback _ n)).symm
  · intro n hsel
    rcases writePair_hsel hsel with rfl | rfl <;>
      simp [loopback, writePair, Ports.htrans1, Ports.transfer]
  · intro n hbusy hsel
    rw [run_loopback] at hbusy
    rcases writePair_hsel hsel with rfl | rfl
    · cases hbusy
    · rw [hready] at hbusy
      cases hbusy
  · intro a haccepted _ k hk hbusy
    have hsel : (writePair gap a).HSEL = true := by
      by_contra hno
      simp [accepted, loopback, hno] at haccepted
    rcases writePair_hsel hsel with rfl | rfl
    · have := hbusy 1 (by omega) hk
      rw [run_loopback, hdata] at this
      cases this
    · have hlater : ∀ j, gap + 1 < j → (loopback (writePair gap) j).HWDATA = 0x11111111 := by
        intro j hj
        simp only [loopback, writePair]
        rw [if_neg (by omega), if_neg (by omega)]
        exact if_neg (by omega)
      rw [hlater k hk, hlater _ (by omega)]

/-- With a gap of one cycle both writes are carried out. -/
theorem nothingLost_writePair_one : NothingLost (loopback (writePair 1)) := by
  apply (nothingLost_iff _ (ahbMaster_writePair (by decide) (by decide))).mpr
  intro n hwrite
  obtain ⟨-, hsel, haddr, -⟩ := registerWrite_iff.mp hwrite
  rcases writePair_hsel hsel with rfl | rfl
  · rfl
  · cases haddr

/-- Without a gap the SID write is accepted and lost. -/
theorem writePair_zero_not_nothingLost :
    AhbMaster (loopback (writePair 0)) ∧ ¬NothingLost (loopback (writePair 0)) := by
  have hmaster : AhbMaster (loopback (writePair 0)) := ahbMaster_writePair (by decide) (by decide)
  refine ⟨hmaster, hmaster.not_nothingLost (n := 1) ?_ ?_⟩
  · rw [run_loopback]
    decide
  · decide

end SidBridge
