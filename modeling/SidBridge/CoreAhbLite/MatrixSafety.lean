import Mathlib.Tactic.Common
import SidBridge.CoreAhbLite.Matrix
import SidBridge.Sync.Run

/-!
# The invariant of the matrix

Master stages and slave stages keep separate registers about one and the same transfer.  This file says
how they agree, on a bus whose masters and slaves keep to the protocol.

* `BusEdge` — what the masters and the slaves owe the matrix from one cycle to the next;
* `MatrixInv` — the agreement: a stage without a kept address has its data phase where the slave stage
  says so; a kept address waits for a slave that works for somebody else; a slave that is not ready works
  for a master that waits; an extended grant has its master still asking;
* `matrixNext_matrixReset` — a core that nobody uses stays as it is after a reset;
* `pregated_kept` — an address phase that no slave takes is there in the next cycle;
* `matrixInv_next`, `matrixInv_run` — the invariant is kept by every edge, and holds along every run;
* `slave_port_held` — so the core keeps to the protocol towards its slaves.
-/

namespace SidBridge.CoreAhbLite

/-- **The protocol, over one edge.**  A master that is told to wait keeps its address phase, and a slave
takes more time only for a transfer it was given.  The swap of slots 0 and 1 is a strap.

`address_held` is stricter than AHB-Lite, which lets a master cancel its next transfer, by IDLE, in the second
cycle of an ERROR response: here it is kept over that edge too. -/
structure BusEdge (c : MatrixGenerics) (x : MatrixReg) (i i' : MatrixIn) : Prop where
  remap_stable : i'.REMAP_M0 = i.REMAP_M0
  address_held : ∀ m, (masterOut c x i m).HREADY_M = false → (i.master m).phase.HTRANS = true →
    (i'.master m).phase = (i.master m).phase
  slave_ready : ∀ s, slotConnected c s = true → (i'.slave s).HREADYOUT = false →
    (i.slave s).HREADYOUT = false ∨
      ((slaveOut c x i s).HSEL = true ∧ (slaveOut c x i s).phase.HTRANS = true)

/-- **How the stages agree.** -/
structure MatrixInv (c : MatrixGenerics) (x : MatrixReg) (i : MatrixIn) : Prop where
  wf : ∀ m, (x.master m).WellFormed (c.slotEnable m)
  owner : ∀ m s, (x.master m).addrRegSM = .idle → (x.master m).target = .slot s →
    c.slotEnable m s = true → (x.slave s).masterDataInProg = some m
  kept : ∀ m, (x.master m).addrRegSM = .registered → ∃ s, c.slotEnable m s = true ∧
    addrTargetOf c x i m = .slot s ∧ (x.master m).target = .slot s ∧
      (x.slave s).masterDataInProg ≠ some m
  busy : ∀ s, slotConnected c s = true → (i.slave s).HREADYOUT = false → ∃ m,
    c.slotEnable m s = true ∧ (x.slave s).masterDataInProg = some m ∧
      (x.master m).addrRegSM = .idle ∧ (x.master m).target = .slot s
  extended : ∀ m s, (x.slave s).arb.Extends m →
    c.slotEnable m s = true ∧ addrTargetOf c x i m = .slot s

theorem target_matrixReset (m : MasterId) : (matrixReset.master m).target = .idle := by
  decide +revert

/-- After a reset every master is told to go on. -/
theorem masterOut_matrixReset (c : MatrixGenerics) (i : MatrixIn) (m : MasterId) :
    masterOut c matrixReset i m =
      { HREADY_M := true, HRESP := false, HRDATA := 0, PREVDATASLAVEREADY := true } :=
  (wellFormed_masterReset _).dataPhase_of_idle (target_matrixReset m)

/-- **A core that nobody uses stays as it is after a reset.** -/
theorem matrixNext_matrixReset {c : MatrixGenerics} {i : MatrixIn}
    (hidle : ∀ m, (i.master m).phase.HTRANS = false) : matrixNext c matrixReset i = matrixReset := by
  have hmaster : (matrixNext c matrixReset i).master = fun _ => masterReset := by
    funext m
    exact masterNext_masterReset (hidle m)
  have hslave : (matrixNext c matrixReset i).slave = fun _ => slaveReset := by
    funext s
    refine slaveNext_slaveReset fun m => ?_
    show (if c.slotEnable m s then saddrsel c.map (remapOf i m) masterReset (i.master m).phase s
      else false) = false
    rw [saddrsel_masterReset (hidle m)]
    exact ite_self _
  show MatrixReg.mk (matrixNext c matrixReset i).master (matrixNext c matrixReset i).slave = _
  rw [hmaster, hslave]
  rfl

/-- **After a reset** the invariant holds if the slaves are ready. -/
theorem matrixInv_reset (c : MatrixGenerics) (i : MatrixIn)
    (hready : ∀ s, slotConnected c s = true → (i.slave s).HREADYOUT = true) :
    MatrixInv c matrixReset i := by
  refine ⟨fun m => wellFormed_masterReset _, fun m s _ htarget => ?_, fun m hs => ?_,
    fun s hs hbusy => ?_, fun m s hext => ?_⟩
  · rw [target_matrixReset] at htarget
    cases htarget
  · cases hs
  · rw [hready s hs] at hbusy
    cases hbusy
  · rcases hext with h | h <;> cases h

namespace MatrixInv

variable {c : MatrixGenerics} {x : MatrixReg} {i i' : MatrixIn} {m : MasterId} {s : SlotId}
  (h : MatrixInv c x i)

include h

/-! ### One cycle -/

/-- A granted master is connected and asks. -/
theorem asks_of_grant (hgrant : grantOf c x i s = some m) :
    c.slotEnable m s = true ∧ addrTargetOf c x i m = .slot s :=
  (grantOf_selects hgrant).elim id (h.extended m s)

/-- A stage that keeps no address is ready for its master when the slave side is. -/
theorem hready_of_idle (hs : (x.master m).addrRegSM = .idle) :
    (masterOut c x i m).HREADY_M = (masterOut c x i m).PREVDATASLAVEREADY :=
  hready_eq_of_owner (h.wf m) fun s htarget hen => h.owner m s hs htarget hen

/-- A master whose address is kept is told to wait. -/
theorem hready_of_registered (hs : (x.master m).addrRegSM = .registered) :
    (masterOut c x i m).HREADY_M = false := by
  obtain ⟨s, hen, -, htarget, hother⟩ := h.kept m hs
  rw [masterOut_of_slot (h.wf m) hen htarget]
  simp [hother]

/-- **What a slave takes is a transfer**: the data phase before it, if any, is over. -/
theorem prev_of_htrans (hgrant : grantOf c x i s = some m) (hready : (i.slave s).HREADYOUT = true)
    (htrans : (slaveOut c x i s).phase.HTRANS = true) :
    (masterOut c x i m).PREVDATASLAVEREADY = true := by
  have hen := (h.asks_of_grant hgrant).1
  rw [slaveOut, (slaveStage_of_grant hgrant).2] at htrans
  simp only [slaveStageIn, hen, if_true, Bool.and_eq_true, Bool.or_eq_true,
    prevDataSlaveReady_eq] at htrans
  rcases htrans.2 with hprev | hdata
  · exact hprev
  · rw [(h.wf m).dataSel, selectSlot_eq_true_iff, Target.slot?_eq_some_iff] at hdata
    rw [masterOut_of_slot (h.wf m) hen hdata]
    exact hready

/-- The address phase at the slave's port, for the master that is granted. -/
theorem phase_of_grant (hgrant : grantOf c x i s = some m) :
    (slaveOut c x i s).HSEL = true ∧
      (slaveOut c x i s).phase = { gatedOf c x i m with
        HTRANS := (masterOut c x i m).PREVDATASLAVEREADY ||
          decide ((x.master m).target = .slot s) } := by
  obtain ⟨hen, htarget⟩ := h.asks_of_grant hgrant
  obtain ⟨hsel, hphase⟩ := slaveStage_of_grant hgrant
  have htrans : (gatedOf c x i m).HTRANS = true := (decodedSlot_of_addrTargetOf htarget).1
  have hdata : (x.master m).SDATASEL s = decide ((x.master m).target = .slot s) := by
    rw [(h.wf m).dataSel, selectSlot]
    exact decide_eq_decide.mpr Target.slot?_eq_some_iff
  refine ⟨hsel, ?_⟩
  rw [slaveOut, hphase]
  simp only [slaveStageIn, hen, if_true, prevDataSlaveReady_eq, hdata]
  rw [show gated c.map (remapOf i m) (x.master m) (i.master m).phase = gatedOf c x i m from rfl,
    htrans, Bool.true_and]

theorem registered_next_iff :
    ((matrixNext c x i).master m).addrRegSM = .registered ↔
      GoesOn c x i m ∧
        ∃ s, c.slotEnable m s = true ∧ addrTargetOf c x i m = .slot s ∧ ¬Takes c x i m s := by
  refine registered_matrixNext_iff (h.wf m) fun hs => ?_
  obtain ⟨s, hen, htarget, -⟩ := h.kept m hs
  exact ⟨s, hen, htarget⟩

/-! ### From one cycle to the next -/

/-- **What no slave takes is kept**, by the stage or by the master. -/
theorem pregated_kept (hedge : BusEdge c x i i') (hen : c.slotEnable m s = true)
    (htarget : addrTargetOf c x i m = .slot s) (hwait : ¬Takes c x i m s) :
    pregated ((matrixNext c x i).master m) (i'.master m).phase =
      pregated (x.master m) (i.master m).phase := by
  have hwf' : ((matrixNext c x i).master m).WellFormed (c.slotEnable m) :=
    (h.wf m).wellFormed_masterNext
  have hreg : ∀ hs : ((matrixNext c x i).master m).addrRegSM = .registered,
      pregated ((matrixNext c x i).master m) (i'.master m).phase =
        ((matrixNext c x i).master m).regAddr := fun hs => hwf'.pregated_of_registered hs
  cases hs : (x.master m).addrRegSM with
  | registered =>
    rw [hreg (h.registered_next_iff.mpr ⟨Or.inl hs, s, hen, htarget, hwait⟩),
      (h.wf m).pregated_of_registered hs]
    exact regAddr_masterNext_of_registered hs
  | idle =>
    rw [(h.wf m).pregated_of_idle hs]
    cases hready : (masterOut c x i m).HREADY_M with
    | true =>
      have hs' := h.registered_next_iff.mpr ⟨Or.inr ⟨hs, hready⟩, s, hen, htarget, hwait⟩
      rw [hreg hs']
      exact regAddr_masterNext_of_idle hs hs'
    | false =>
      have hs' : ((matrixNext c x i).master m).addrRegSM = .idle := by
        cases hnext : ((matrixNext c x i).master m).addrRegSM with
        | idle => rfl
        | registered =>
          rcases (h.registered_next_iff.mp hnext).1 with hreg' | ⟨-, hready'⟩
          · rw [hs] at hreg'
            cases hreg'
          · rw [hready] at hready'
            cases hready'
      have htrans := (decodedSlot_of_addrTargetOf htarget).1
      rw [(h.wf m).pregated_of_idle hs] at htrans
      rw [show pregated ((matrixNext c x i).master m) (i'.master m).phase = (i'.master m).phase from
        hwf'.pregated_of_idle hs']
      exact hedge.address_held m hready htrans

/-- What no slave takes addresses the same slot in the next cycle. -/
theorem addrTargetOf_kept (hedge : BusEdge c x i i') (hen : c.slotEnable m s = true)
    (htarget : addrTargetOf c x i m = .slot s) (hwait : ¬Takes c x i m s) :
    addrTargetOf c (matrixNext c x i) i' m = .slot s := by
  rw [← htarget, addrTargetOf, addrTargetOf, addrTarget, addrTarget,
    h.pregated_kept hedge hen htarget hwait, remapOf, remapOf, hedge.remap_stable]

/-- A slave that is taken leaves its stage without a kept address. -/
theorem idle_next_of_takes (htarget : addrTargetOf c x i m = .slot s) (htakes : Takes c x i m s) :
    ((matrixNext c x i).master m).addrRegSM = .idle := by
  cases hnext : ((matrixNext c x i).master m).addrRegSM with
  | idle => rfl
  | registered =>
    obtain ⟨-, t, -, ht, hwait⟩ := h.registered_next_iff.mp hnext
    rw [htarget, Target.slot.injEq] at ht
    exact absurd (ht ▸ htakes) hwait

/-- A waiting master stays in its data phase. -/
theorem waits_next (hs : (x.master m).addrRegSM = .idle) (htarget : (x.master m).target = .slot s)
    (hen : c.slotEnable m s = true) (hbusy : (i.slave s).HREADYOUT = false) :
    ((matrixNext c x i).master m).addrRegSM = .idle ∧
      ((matrixNext c x i).master m).target = .slot s := by
  have hprev : (masterOut c x i m).PREVDATASLAVEREADY = false := by
    rw [masterOut_of_slot (h.wf m) hen htarget]
    exact hbusy
  constructor
  · cases hnext : ((matrixNext c x i).master m).addrRegSM with
    | idle => rfl
    | registered =>
      rcases (h.registered_next_iff.mp hnext).1 with hreg | ⟨-, hready⟩
      · rw [hs] at hreg
        cases hreg
      · rw [h.hready_of_idle hs, hprev] at hready
        cases hready
  · rw [target_matrixNext (h.wf m), hprev, if_neg (by simp), htarget]

theorem owner_next (hs' : ((matrixNext c x i).master m).addrRegSM = .idle)
    (htarget' : ((matrixNext c x i).master m).target = .slot s) (hen : c.slotEnable m s = true) :
    ((matrixNext c x i).slave s).masterDataInProg = some m := by
  rw [target_matrixNext (h.wf m)] at htarget'
  rw [masterDataInProg_matrixNext hen]
  cases hprev : (masterOut c x i m).PREVDATASLAVEREADY with
  | true =>
    rw [hprev, if_pos rfl] at htarget'
    have hgoes : GoesOn c x i m := by
      cases hs : (x.master m).addrRegSM with
      | registered => exact Or.inl hs
      | idle => exact Or.inr ⟨hs, (h.hready_of_idle hs).trans hprev⟩
    have htakes : Takes c x i m s := by
      by_contra hwait
      rw [h.registered_next_iff.mpr ⟨hgoes, s, hen, htarget', hwait⟩] at hs'
      cases hs'
    rw [if_pos htakes.2]
    exact htakes.1
  | false =>
    rw [hprev, if_neg (by simp)] at htarget'
    have hbusy : (i.slave s).HREADYOUT = false := by
      rw [masterOut_of_slot (h.wf m) hen htarget'] at hprev
      exact hprev
    rw [if_neg (by simp [hbusy])]
    cases hs : (x.master m).addrRegSM with
    | idle => exact h.owner m s hs htarget' hen
    | registered =>
      obtain ⟨t, hent, ht, hdata, -⟩ := h.kept m hs
      rw [htarget', Target.slot.injEq] at hdata
      subst hdata
      have hwait : ¬Takes c x i m s := fun htakes => by
        rw [htakes.2] at hbusy
        cases hbusy
      rw [h.registered_next_iff.mpr ⟨Or.inl hs, s, hent, ht, hwait⟩] at hs'
      cases hs'

theorem kept_next (hedge : BusEdge c x i i')
    (hs' : ((matrixNext c x i).master m).addrRegSM = .registered) :
    ∃ s, c.slotEnable m s = true ∧ addrTargetOf c (matrixNext c x i) i' m = .slot s ∧
      ((matrixNext c x i).master m).target = .slot s ∧
        ((matrixNext c x i).slave s).masterDataInProg ≠ some m := by
  obtain ⟨hgoes, s, hen, htarget, hwait⟩ := h.registered_next_iff.mp hs'
  -- the slave works for somebody else: else its master waits for it and does not go on
  have hother : (i.slave s).HREADYOUT = false → (x.slave s).masterDataInProg ≠ some m := by
    intro hbusy hdata
    obtain ⟨m', hen', hdata', hs, htarget'⟩ := h.busy s (slotConnected_of_enabled hen) hbusy
    obtain rfl : m' = m := by rwa [hdata', Option.some.injEq] at hdata
    rcases hgoes with hreg | ⟨-, hready⟩
    · rw [hs] at hreg
      cases hreg
    · rw [h.hready_of_idle hs, masterOut_of_slot (h.wf _) hen htarget', hbusy] at hready
      cases hready
  refine ⟨s, hen, h.addrTargetOf_kept hedge hen htarget hwait, ?_, ?_⟩
  · rw [target_matrixNext (h.wf m)]
    split
    · exact htarget
    · rename_i hprev
      rcases hgoes with hreg | ⟨hs, hready⟩
      · obtain ⟨t, -, ht, hdata, -⟩ := h.kept m hreg
        rw [htarget] at ht
        rw [hdata, ← ht]
      · exact absurd ((h.hready_of_idle hs).symm.trans hready) hprev
  · rw [masterDataInProg_matrixNext hen]
    split
    · exact fun hgrant => hwait ⟨hgrant, by assumption⟩
    · exact hother (by simp_all)

theorem busy_next (hedge : BusEdge c x i i') (hconn : slotConnected c s = true)
    (hbusy' : (i'.slave s).HREADYOUT = false) :
    ∃ m, c.slotEnable m s = true ∧ ((matrixNext c x i).slave s).masterDataInProg = some m ∧
      ((matrixNext c x i).master m).addrRegSM = .idle ∧
        ((matrixNext c x i).master m).target = .slot s := by
  by_cases hbusy : (i.slave s).HREADYOUT = false
  · obtain ⟨m, hen, hdata, hs, htarget⟩ := h.busy s hconn hbusy
    refine ⟨m, hen, ?_, h.waits_next hs htarget hen hbusy⟩
    rw [masterDataInProg_matrixNext hen, if_neg (by simp [hbusy]), hdata]
  · have hready : (i.slave s).HREADYOUT = true := by simpa using hbusy
    obtain ⟨hsel, htrans⟩ := (hedge.slave_ready s hconn hbusy').resolve_left hbusy
    cases hgrant : grantOf c x i s with
    | none =>
      rw [slaveOut, (slaveStage_of_no_grant hgrant).1] at hsel
      cases hsel
    | some m =>
      obtain ⟨hen, htarget⟩ := h.asks_of_grant hgrant
      refine ⟨m, hen, ?_, h.idle_next_of_takes htarget ⟨hgrant, hready⟩, ?_⟩
      · rw [masterDataInProg_matrixNext hen, if_pos hready, hgrant]
      · rw [target_matrixNext (h.wf m), h.prev_of_htrans hgrant hready htrans, if_pos rfl, htarget]

theorem extended_next (hedge : BusEdge c x i i')
    (hext : ((matrixNext c x i).slave s).arb.Extends m) :
    c.slotEnable m s = true ∧ addrTargetOf c (matrixNext c x i) i' m = .slot s := by
  obtain ⟨hgrant, hend⟩ := grant_of_next_extends hext
  obtain ⟨hen, htarget⟩ := h.asks_of_grant (s := s) (m := m) hgrant
  refine ⟨hen, h.addrTargetOf_kept hedge hen htarget fun htakes => ?_⟩
  rw [show (arbIn (slaveStageIn c x i s)).ADDRPHEND = (i.slave s).HREADYOUT from
    intHREADYOUT_of_enabled hen, htakes.2] at hend
  cases hend

/-- **Every edge keeps the agreement.** -/
theorem matrixInv_next (hedge : BusEdge c x i i') : MatrixInv c (matrixNext c x i) i' where
  wf m := (h.wf m).wellFormed_masterNext
  owner _ _ hs htarget hen := h.owner_next hs htarget hen
  kept _ hs := h.kept_next hedge hs
  busy _ hconn hbusy := h.busy_next hedge hconn hbusy
  extended _ _ hext := h.extended_next hedge hext

end MatrixInv

/-- A run of the matrix after a reset, on a bus that keeps to the protocol up to cycle `n`. -/
structure ConformsUpTo (c : MatrixGenerics) (x : ℕ → MatrixReg) (inp : ℕ → MatrixIn) (n : ℕ) : Prop where
  isRun : Sync.IsRun (matrixNext c) x inp
  reset : x 0 = matrixReset
  ready : ∀ s, slotConnected c s = true → ((inp 0).slave s).HREADYOUT = true
  edge : ∀ k, k < n → BusEdge c (x k) (inp k) (inp (k + 1))

theorem ConformsUpTo.mono {c : MatrixGenerics} {x : ℕ → MatrixReg} {inp : ℕ → MatrixIn} {k n : ℕ}
    (h : ConformsUpTo c x inp n) (hk : k ≤ n) : ConformsUpTo c x inp k :=
  ⟨h.isRun, h.reset, h.ready, fun j hj => h.edge j (Nat.lt_of_lt_of_le hj hk)⟩

/-- **The agreement holds along every run**, up to the first breach of the protocol. -/
theorem matrixInv_run {c : MatrixGenerics} {x : ℕ → MatrixReg} {inp : ℕ → MatrixIn} {n : ℕ}
    (h : ConformsUpTo c x inp n) : MatrixInv c (x n) (inp n) := by
  induction n with
  | zero =>
    rw [h.reset]
    exact matrixInv_reset c (inp 0) h.ready
  | succ n ih =>
    rw [h.isRun n]
    exact (ih (h.mono (Nat.le_succ n))).matrixInv_next (h.edge n (Nat.lt_succ_self n))

/-! ### Towards the slaves -/

/-- Eight slots, each connected to all masters. -/
def sharedMatrix : MatrixGenerics where
  map := { MEMSPACE := ⟨1, by decide⟩, HADDR_SHG_CFG := ⟨0, by decide⟩, SC := 0#16 }
  slotEnable _ s := decide (s.val < 8)

/-- In cycle 0 three masters read slot 0 and the last one an address that is not connected.  The slave takes
a second cycle for the first of them, and answers with the number of the cycle. -/
def rush (n : ℕ) : MatrixIn where
  REMAP_M0 := false
  master m :=
    { phase :=
        { AddrPhase.zero with
          HADDR := if m.val = 3 then 0x80000000#32 else 0#32
          HTRANS := decide (n = 0) }
      HWDATA := 0 }
  slave s :=
    { HREADYOUT := decide (s.val ≠ 0) || decide (n ≠ 1), HRESP := false, HRDATA := BitVec.ofNat 32 n }

/-- A run with these inputs keeps to the protocol, if the slave is given a transfer in cycle 0. -/
theorem conformsUpTo_rush {c : MatrixGenerics}
    (hsel : (slaveOut c matrixReset (rush 0) 0).HSEL = true ∧
      (slaveOut c matrixReset (rush 0) 0).phase.HTRANS = true) (n : ℕ) :
    ConformsUpTo c (Sync.run (matrixNext c) matrixReset rush) rush n := by
  refine ⟨fun _ => rfl, rfl, fun s _ => by simp [rush], fun k _ => ⟨rfl, fun m hwait htrans => ?_,
    fun s _ hbusy => ?_⟩⟩
  · obtain rfl : k = 0 := by simpa [rush] using htrans
    rw [Sync.run_zero, masterOut_matrixReset] at hwait
    cases hwait
  · obtain ⟨hs, rfl⟩ : s.val = 0 ∧ k = 0 := by simpa [rush] using hbusy
    obtain rfl : s = 0 := Fin.ext hs
    exact Or.inr hsel

/-- The rush on the shared matrix. -/
def rushRun : ℕ → MatrixReg := Sync.run (matrixNext sharedMatrix) matrixReset rush

theorem conformsUpTo_rushRun (n : ℕ) : ConformsUpTo sharedMatrix rushRun rush n :=
  conformsUpTo_rush (by decide) n

end SidBridge.CoreAhbLite
