import Mathlib.Tactic.Common
import SidBridge.CoreAhbLite.Fairness

/-!
# One master alone

With a single master connected, and no locked transfers, there is nobody to wait for: the core is a
decoder and a set of wires.

* `SoleMaster` — one master is connected to all the slots that have one;
* `wellFormed_run`, `extends_sole`, `grant_sole`, `grant_of_asks` — what holds in every run, whatever the
  bus does: the master is granted the slot it asks for in the cycle it asks;
* `idle_sole` — while the bus keeps to the protocol its stage never keeps an address;
* `port_of_asks`, `port_of_not_asks`, `data_of_target`, `target_of_busy` — the ports of the slaves;
* `transparent` — every slave takes exactly what the master sees accepted, in the same cycle.
-/

namespace SidBridge.CoreAhbLite

/-- All connected slots are connected to the one master. -/
def SoleMaster (c : MatrixGenerics) (m : MasterId) : Prop :=
  ∀ k s, c.slotEnable k s = true → k = m

variable {c : MatrixGenerics} {x : ℕ → MatrixReg} {inp : ℕ → MatrixIn} {m : MasterId} {s : SlotId}

/-- The registers of a stage agree with each other along every run. -/
theorem wellFormed_run (hx : Sync.IsRun (matrixNext c) x inp) (hreset : x 0 = matrixReset) (m : MasterId)
    (n : ℕ) : ((x n).master m).WellFormed (c.slotEnable m) := by
  induction n with
  | zero =>
    rw [hreset]
    exact wellFormed_masterReset _
  | succ n ih =>
    rw [hx n]
    exact ih.wellFormed_masterNext

section AnyBus

variable (hx : Sync.IsRun (matrixNext c) x inp) (hreset : x 0 = matrixReset) (hsole : SoleMaster c m)

include hx hreset hsole

/-- No address phase but that of the one master is ever extended. -/
theorem extends_sole {k : MasterId} (n : ℕ) (hext : ((x n).slave s).arb.Extends k) : k = m := by
  induction n with
  | zero =>
    rw [hreset] at hext
    rcases hext with h | h <;> cases h
  | succ n ih =>
    rw [hx n] at hext
    have hgrant : grantOf c (x n) (inp n) s = some k := (grant_of_next_extends hext).1
    rcases grantOf_selects hgrant with ⟨hen, -⟩ | hbefore
    · exact hsole k s hen
    · exact ih hbefore

/-- Nobody else is ever granted. -/
theorem grant_sole {k : MasterId} {n : ℕ} (hgrant : grantOf c (x n) (inp n) s = some k) : k = m := by
  rcases grantOf_selects hgrant with ⟨hen, -⟩ | hext
  · exact hsole k s hen
  · exact extends_sole hx hreset hsole n hext

/-- **A request is granted at once.** -/
theorem grant_of_asks (hlock : NoLocks inp) {n : ℕ} (hen : c.slotEnable m s = true)
    (hasks : addrTargetOf c (x n) (inp n) m = .slot s) : grantOf c (x n) (inp n) s = some m := by
  have hsome := grant_isSome (fun k => (isFree_run hx hreset hlock n s k).1)
    (gated_unlocked hx hreset hlock n s) (maddrsel_eq_true_iff.mpr ⟨hen, hasks⟩)
  obtain ⟨k, hk⟩ := Option.isSome_iff_exists.mp hsome
  have hgrant : grantOf c (x n) (inp n) s = some k := hk
  rw [hgrant, grant_sole hx hreset hsole hgrant]

end AnyBus

section Protocol

variable {n : ℕ} (h : ConformsUpTo c x inp n) (hlock : NoLocks inp) (hsole : SoleMaster c m)

include h hlock hsole

/-- **The stage never keeps an address**: the slave is ready for it whenever the master goes on. -/
theorem idle_sole : ((x n).master m).addrRegSM = .idle := by
  induction n with
  | zero =>
    rw [h.reset]
    rfl
  | succ n ih =>
    have hc := h.mono (Nat.le_succ n)
    have hs := ih hc
    have hinv := matrixInv_run hc
    cases hnext : ((x (n + 1)).master m).addrRegSM with
    | idle => rfl
    | registered =>
      rw [h.isRun n] at hnext
      obtain ⟨hgoes, s, hen, hasks, hwait⟩ := hinv.registered_next_iff.mp hnext
      have hready : (masterOut c (x n) (inp n) m).HREADY_M = true := by
        rcases hgoes with hreg | ⟨-, hready⟩
        · rw [hs] at hreg
          cases hreg
        · exact hready
      have hgrant := grant_of_asks h.isRun h.reset hsole hlock hen hasks
      -- a slave that is not ready has the master waiting for it
      have hbusy : ((inp n).slave s).HREADYOUT = false := by
        by_contra hno
        exact hwait ⟨hgrant, by simpa using hno⟩
      obtain ⟨k, hen', -, -, htarget⟩ := hinv.busy s (slotConnected_of_enabled hen) hbusy
      obtain rfl := hsole k s hen'
      rw [hinv.hready_of_idle hs, masterOut_of_slot (hinv.wf k) hen' htarget, hbusy] at hready
      cases hready

/-- What the stage works on is what the master presents. -/
theorem pregated_sole : pregated ((x n).master m) ((inp n).master m).phase = ((inp n).master m).phase :=
  ((matrixInv_run h).wf m).pregated_of_idle (idle_sole h hlock hsole)

/-- **The port of a slave that is asked for**: the address phase, as a transfer if the data phase before
it ends, or is at the same slave. -/
theorem port_of_asks (hen : c.slotEnable m s = true)
    (hasks : addrTargetOf c (x n) (inp n) m = .slot s) :
    (slaveOut c (x n) (inp n) s).HSEL = true ∧
      (slaveOut c (x n) (inp n) s).phase = { gatedOf c (x n) (inp n) m with
        HTRANS := (masterOut c (x n) (inp n) m).HREADY_M ||
          decide (((x n).master m).target = .slot s) } := by
  have hinv := matrixInv_run h
  have hgrant := grant_of_asks h.isRun h.reset hsole hlock hen hasks
  rw [hinv.hready_of_idle (idle_sole h hlock hsole)]
  exact hinv.phase_of_grant hgrant

omit hlock in
/-- A slave that is not asked for is not selected. -/
theorem port_of_not_asks (hno : addrTargetOf c (x n) (inp n) m ≠ .slot s) :
    (slaveOut c (x n) (inp n) s).HSEL = false := by
  have hinv := matrixInv_run h
  cases hgrant : grantOf c (x n) (inp n) s with
  | none => exact (slaveStage_of_no_grant hgrant).1
  | some k =>
    obtain rfl := grant_sole h.isRun h.reset hsole hgrant
    exact absurd (hinv.asks_of_grant hgrant).2 hno

/-- **The data phase**: the master sees the slave, and the slave sees the data of the master. -/
theorem data_of_target (hen : c.slotEnable m s = true) (htarget : ((x n).master m).target = .slot s) :
    masterOut c (x n) (inp n) m =
        { HREADY_M := ((inp n).slave s).HREADYOUT
          HRESP := ((inp n).slave s).HRESP
          HRDATA := ((inp n).slave s).HRDATA
          PREVDATASLAVEREADY := ((inp n).slave s).HREADYOUT } ∧
      (slaveOut c (x n) (inp n) s).HWDATA = ((inp n).master m).HWDATA := by
  have hinv := matrixInv_run h
  have hs := idle_sole h hlock hsole
  exact Owns.ports (hinv.wf m) hen ⟨hs, htarget, hinv.owner m s hs htarget hen⟩

omit hlock in
/-- A slave takes time only for the data phase of the master. -/
theorem target_of_busy (hen : c.slotEnable m s = true) (hbusy : ((inp n).slave s).HREADYOUT = false) :
    ((x n).master m).target = .slot s := by
  obtain ⟨k, hen', -, -, htarget⟩ := (matrixInv_run h).busy s (slotConnected_of_enabled hen) hbusy
  obtain rfl := hsole k s hen'
  exact htarget

/-- A slave that is asked for in a cycle in which the master goes on is ready. -/
theorem ready_of_hready (hen : c.slotEnable m s = true)
    (hready : (masterOut c (x n) (inp n) m).HREADY_M = true) :
    ((inp n).slave s).HREADYOUT = true := by
  by_contra hno
  have hbusy : ((inp n).slave s).HREADYOUT = false := by simpa using hno
  have htarget := target_of_busy h hsole hen hbusy
  rw [(data_of_target h hlock hsole hen htarget).1, hbusy] at hready
  cases hready

end Protocol

/-- **Transparent.**  Behind the core a slave takes a transfer exactly in the cycle in which the master
sees one of its own accepted there, and it is that transfer. -/
theorem transparent (h : ∀ n, ConformsUpTo c x inp n) (hlock : NoLocks inp) (hsole : SoleMaster c m)
    (hen : c.slotEnable m s = true) (n : ℕ) (phase : AddrPhase) :
    startedBy c (x n) (inp n) m s = some phase ↔
      issued c (x n) (inp n) m = some (.slot s, phase) := by
  have hinv := matrixInv_run (h n)
  have hs := idle_sole (h n) hlock hsole
  rw [hinv.startedBy_eq_some_iff, hinv.issued_eq_some_iff]
  constructor
  · intro hall
    obtain ⟨htakes, hprev, rfl⟩ := hall
    have hasks := (hinv.asks_of_grant htakes.1).2
    have htrans := (decodedSlot_of_addrTargetOf hasks).1
    rw [pregated_sole (h n) hlock hsole] at htrans
    exact ⟨hs, htrans, (hinv.hready_of_idle hs).trans hprev, by rw [hasks]⟩
  · intro hall
    obtain ⟨-, -, hready, hsame⟩ := hall
    rw [Prod.mk.injEq] at hsame
    have hgrant := grant_of_asks (h n).isRun (h n).reset hsole hlock hen hsame.1.symm
    exact ⟨⟨hgrant, ready_of_hready (h n) hlock hsole hen hready⟩,
      (hinv.hready_of_idle hs).symm.trans hready, hsame.2⟩

/-- The shared matrix with all masters but the first disconnected. -/
def privateMatrix : MatrixGenerics :=
  { sharedMatrix with slotEnable := fun m s => decide (m.val = 0) && sharedMatrix.slotEnable m s }

/-- There the slave takes the read of the first master in cycle 0. -/
theorem transparent_privateMatrix :
    startedBy privateMatrix matrixReset (rush 0) 0 0 = some { AddrPhase.zero with HTRANS := true } := by
  have hsole : SoleMaster privateMatrix 0 := fun m s hen => Fin.ext (by
    simpa using (Bool.and_eq_true_iff.mp hen).1)
  refine (transparent (conformsUpTo_rush (by decide)) (fun n m => rfl) hsole rfl 0 _).mpr ?_
  decide

end SidBridge.CoreAhbLite
