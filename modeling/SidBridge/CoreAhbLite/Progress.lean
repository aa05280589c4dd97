import Mathlib.Tactic.Common
import SidBridge.CoreAhbLite.SoleMaster

/-!
# One master alone is never blocked for ever

Nothing is asked of the bus here: the master may change its address phase while it waits, and a slave may
take time for whatever it likes, as long as it is ready again and again.

* `StageInv` — how the stage of the master and the slave stages agree on any bus;
* `StageInv.kept_next`, `StageInv.owner_next`, `stageInv_run` — one edge, and every run;
* `goes_of_idle`, `idle_of_registered` — a stage without a kept address waits for its slave once, and a
  kept address is handed over the first time its slave is ready;
* `hready_within`, `hready_again` — so the master goes on again, and when: after two rounds of its slave.
-/

namespace SidBridge.CoreAhbLite

/-- **The agreement on any bus.**  Without a kept address the slave stage works for the master in its data
phase; a kept address is for the slot of the data phase. -/
structure StageInv (c : MatrixGenerics) (x : MatrixReg) (i : MatrixIn) (m : MasterId) : Prop where
  wf : (x.master m).WellFormed (c.slotEnable m)
  owner : (x.master m).addrRegSM = .idle → ∀ s, (x.master m).target = .slot s →
    c.slotEnable m s = true → (x.slave s).masterDataInProg = some m
  kept : (x.master m).addrRegSM = .registered → ∃ s, c.slotEnable m s = true ∧
    addrTargetOf c x i m = .slot s ∧ (x.master m).target = .slot s

namespace StageInv

variable {c : MatrixGenerics} {x : MatrixReg} {i i' : MatrixIn} {m : MasterId} {s : SlotId}
  (h : StageInv c x i m)

include h

theorem hready_of_idle (hs : (x.master m).addrRegSM = .idle) :
    (masterOut c x i m).HREADY_M = (masterOut c x i m).PREVDATASLAVEREADY :=
  hready_eq_of_owner h.wf (h.owner hs)

theorem registered_iff :
    ((matrixNext c x i).master m).addrRegSM = .registered ↔
      GoesOn c x i m ∧
        ∃ s, c.slotEnable m s = true ∧ addrTargetOf c x i m = .slot s ∧ ¬Takes c x i m s := by
  refine registered_matrixNext_iff h.wf fun hs => ?_
  obtain ⟨s, hen, htarget, -⟩ := h.kept hs
  exact ⟨s, hen, htarget⟩

/-- The data phase at a slot that is not ready does not end. -/
theorem prev_of_busy (hen : c.slotEnable m s = true) (htarget : (x.master m).target = .slot s) :
    (masterOut c x i m).PREVDATASLAVEREADY = (i.slave s).HREADYOUT := by
  rw [masterOut_of_slot h.wf hen htarget]

/-- **A kept address** is for the slot of the data phase after every edge. -/
theorem kept_next (hremap : i'.REMAP_M0 = i.REMAP_M0)
    (hs' : ((matrixNext c x i).master m).addrRegSM = .registered) :
    ∃ s, c.slotEnable m s = true ∧ addrTargetOf c (matrixNext c x i) i' m = .slot s ∧
      ((matrixNext c x i).master m).target = .slot s := by
  have hwf' : ((matrixNext c x i).master m).WellFormed (c.slotEnable m) := h.wf.wellFormed_masterNext
  obtain ⟨hgoes, s, hen, hasks, -⟩ := h.registered_iff.mp hs'
  refine ⟨s, hen, ?_, ?_⟩
  · -- the copy is the address phase the stage worked on
    have hcopy : ((matrixNext c x i).master m).regAddr =
        pregated (x.master m) (i.master m).phase := by
      rcases hgoes with hs | ⟨hs, -⟩
      · rw [h.wf.pregated_of_registered hs]
        exact regAddr_masterNext_of_registered hs
      · rw [h.wf.pregated_of_idle hs]
        exact regAddr_masterNext_of_idle hs hs'
    rw [← hasks, addrTargetOf, addrTargetOf, addrTarget, addrTarget, hwf'.pregated_of_registered hs',
      hcopy, remapOf, remapOf, hremap]
  · rw [target_matrixNext h.wf]
    cases hprev : (masterOut c x i m).PREVDATASLAVEREADY with
    | true => rw [if_pos rfl, hasks]
    | false =>
      rcases hgoes with hs | ⟨hs, hready⟩
      · obtain ⟨t, -, hasks', htarget⟩ := h.kept hs
        rw [if_neg Bool.false_ne_true, htarget, ← hasks', hasks]
      · rw [h.hready_of_idle hs, hprev] at hready
        cases hready

/-- **The slave stage works for the master** in every data phase that is open without a kept address. -/
theorem owner_next (hgrant : ∀ t, c.slotEnable m t = true → addrTargetOf c x i m = .slot t →
      grantOf c x i t = some m)
    (hs' : ((matrixNext c x i).master m).addrRegSM = .idle)
    (htarget' : ((matrixNext c x i).master m).target = .slot s) (hen : c.slotEnable m s = true) :
    ((matrixNext c x i).slave s).masterDataInProg = some m := by
  -- an address of the slot that goes on is taken, since it is not kept
  have htaken : addrTargetOf c x i m = .slot s → GoesOn c x i m →
      (i.slave s).HREADYOUT = true := by
    intro hasks hgoes
    by_contra hbusy
    have hkept := h.registered_iff.mpr ⟨hgoes, s, hen, hasks, fun htakes => hbusy htakes.2⟩
    rw [hs'] at hkept
    cases hkept
  rw [target_matrixNext h.wf] at htarget'
  rw [masterDataInProg_matrixNext hen]
  cases hprev : (masterOut c x i m).PREVDATASLAVEREADY with
  | true =>
    rw [hprev, if_pos rfl] at htarget'
    rw [if_pos, hgrant s hen htarget']
    refine htaken htarget' ?_
    cases hs : (x.master m).addrRegSM with
    | registered => exact Or.inl hs
    | idle => exact Or.inr ⟨hs, (h.hready_of_idle hs).trans hprev⟩
  | false =>
    rw [hprev, if_neg Bool.false_ne_true] at htarget'
    have hbusy : (i.slave s).HREADYOUT = false := (h.prev_of_busy hen htarget').symm.trans hprev
    rw [hbusy, if_neg Bool.false_ne_true]
    cases hs : (x.master m).addrRegSM with
    | idle => exact h.owner hs s htarget' hen
    | registered =>
      obtain ⟨t, -, hasks, htarget⟩ := h.kept hs
      rw [htarget', Target.slot.injEq] at htarget
      rw [htaken (htarget ▸ hasks) (Or.inl hs)] at hbusy
      cases hbusy

end StageInv

section Runs

variable {c : MatrixGenerics} {x : ℕ → MatrixReg} {inp : ℕ → MatrixIn} {m : MasterId} {s : SlotId}
  (hx : Sync.IsRun (matrixNext c) x inp) (hreset : x 0 = matrixReset) (hsole : SoleMaster c m)
  (hlock : NoLocks inp) (hremap : ∀ n, (inp (n + 1)).REMAP_M0 = (inp n).REMAP_M0)

include hx hreset hsole hlock hremap

/-- **The agreement holds along every run**, on any bus. -/
theorem stageInv_run (n : ℕ) : StageInv c (x n) (inp n) m := by
  induction n with
  | zero =>
    rw [hreset]
    refine ⟨wellFormed_masterReset _, fun _ s htarget => ?_, fun hs => ?_⟩
    · rw [target_matrixReset] at htarget
      cases htarget
    · cases hs
  | succ n ih =>
    rw [hx n]
    refine ⟨ih.wf.wellFormed_masterNext, fun hs' s htarget' hen => ?_, fun hs' => ?_⟩
    · exact ih.owner_next (fun t hen hasks => grant_of_asks hx hreset hsole hlock hen hasks) hs'
        htarget' hen
    · exact ih.kept_next (hremap n) hs'

/-- **Without a kept address** the master goes on when its slave is ready. -/
theorem goes_of_idle {n d : ℕ} (hs : ((x n).master m).addrRegSM = .idle)
    (htarget : ((x n).master m).target = .slot s) (hen : c.slotEnable m s = true)
    (hready : ((inp (n + d)).slave s).HREADYOUT = true) :
    ∃ k, n ≤ k ∧ k ≤ n + d ∧ (masterOut c (x k) (inp k) m).HREADY_M = true := by
  induction d generalizing n with
  | zero =>
    have h := stageInv_run hx hreset hsole hlock hremap n
    refine ⟨n, le_rfl, le_rfl, ?_⟩
    rw [h.hready_of_idle hs, h.prev_of_busy hen htarget]
    exact hready
  | succ d ih =>
    have h := stageInv_run hx hreset hsole hlock hremap n
    cases hgoes : (masterOut c (x n) (inp n) m).HREADY_M with
    | true => exact ⟨n, le_rfl, Nat.le_add_right n _, hgoes⟩
    | false =>
      -- the data phase stays open, and no address is kept
      have hs' : ((x (n + 1)).master m).addrRegSM = .idle := by
        cases hnext : ((x (n + 1)).master m).addrRegSM with
        | idle => rfl
        | registered =>
          rw [hx n] at hnext
          rcases (h.registered_iff.mp hnext).1 with hreg | ⟨-, hready'⟩
          · rw [hs] at hreg
            cases hreg
          · rw [hgoes] at hready'
            cases hready'
      have htarget' : ((x (n + 1)).master m).target = .slot s := by
        rw [hx n, target_matrixNext h.wf, ← h.hready_of_idle hs, hgoes, if_neg Bool.false_ne_true,
          htarget]
      rw [show n + (d + 1) = n + 1 + d by omega] at hready
      obtain ⟨k, hk, hle, hout⟩ := ih hs' htarget' hready
      exact ⟨k, by omega, by omega, hout⟩

/-- **A kept address** is handed over the first time its slave is ready. -/
theorem idle_of_registered {n d : ℕ} (hs : ((x n).master m).addrRegSM = .registered)
    (htarget : ((x n).master m).target = .slot s)
    (hready : ((inp (n + d)).slave s).HREADYOUT = true) :
    ∃ k, n < k ∧ k ≤ n + d + 1 ∧ ((x k).master m).addrRegSM = .idle ∧
      ((x k).master m).target = .slot s := by
  induction d generalizing n with
  | zero =>
    have h := stageInv_run hx hreset hsole hlock hremap n
    obtain ⟨t, hen, hasks, htarget'⟩ := h.kept hs
    obtain rfl : t = s := by rwa [htarget', Target.slot.injEq] at htarget
    have hgrant := grant_of_asks hx hreset hsole hlock hen hasks
    refine ⟨n + 1, Nat.lt_succ_self n, le_rfl, ?_, ?_⟩
    · cases hnext : ((x (n + 1)).master m).addrRegSM with
      | idle => rfl
      | registered =>
        rw [hx n] at hnext
        obtain ⟨-, t', -, hasks', hwait⟩ := h.registered_iff.mp hnext
        rw [hasks, Target.slot.injEq] at hasks'
        exact absurd ⟨hasks' ▸ hgrant, hasks' ▸ hready⟩ hwait
    · rw [hx n, target_matrixNext h.wf, h.prev_of_busy hen htarget]
      split
      · exact hasks
      · exact htarget
  | succ d ih =>
    have h := stageInv_run hx hreset hsole hlock hremap n
    have h' := stageInv_run hx hreset hsole hlock hremap (n + 1)
    obtain ⟨t, hen, hasks, htarget'⟩ := h.kept hs
    obtain rfl : t = s := by rwa [htarget', Target.slot.injEq] at htarget
    have hsame : ((x (n + 1)).master m).target = .slot t := by
      rw [hx n, target_matrixNext h.wf, hasks, htarget, ite_self]
    rw [show n + (d + 1) = n + 1 + d by omega] at hready
    cases hnext : ((x (n + 1)).master m).addrRegSM with
    | idle => exact ⟨n + 1, Nat.lt_succ_self n, by omega, hnext, hsame⟩
    | registered =>
      obtain ⟨k, hk, hle, hout⟩ := ih hnext hsame hready
      exact ⟨k, by omega, by omega, hout⟩

/-- **The wait of the master**: two rounds of its slave at most, if it is ready `f k` cycles after cycle
`k`. -/
theorem hready_within {n : ℕ} {f : ℕ → ℕ} (htarget : ((x n).master m).target = .slot s)
    (hen : c.slotEnable m s = true)
    (hready : ∀ k, n ≤ k → ((inp (k + f k)).slave s).HREADYOUT = true) :
    ∃ j k, n ≤ j ∧ j ≤ n + f n + 1 ∧ n ≤ k ∧ k ≤ j + f j ∧
      (masterOut c (x k) (inp k) m).HREADY_M = true := by
  cases hs : ((x n).master m).addrRegSM with
  | idle =>
    obtain ⟨k, hk, hle, hout⟩ :=
      goes_of_idle hx hreset hsole hlock hremap hs htarget hen (hready n le_rfl)
    exact ⟨n, k, le_rfl, by omega, hk, hle, hout⟩
  | registered =>
    obtain ⟨j, hj, hjle, hs', htarget'⟩ :=
      idle_of_registered hx hreset hsole hlock hremap hs htarget (hready n le_rfl)
    obtain ⟨k, hk, hle, hout⟩ :=
      goes_of_idle hx hreset hsole hlock hremap hs' htarget' hen (hready j (Nat.le_of_lt hj))
    exact ⟨j, k, Nat.le_of_lt hj, hjle, by omega, hle, hout⟩

omit hsole hlock hremap in
/-- The default slave answers in two cycles. -/
theorem hready_of_default {n : ℕ} (htarget : ((x n).master m).target.isDefault (c.slotEnable m) = true) :
    (masterOut c (x n) (inp n) m).HREADY_M = true ∨
      (masterOut c (x (n + 1)) (inp (n + 1)) m).HREADY_M = true := by
  have hwf := wellFormed_run hx hreset m n
  have hout : masterOut c (x n) (inp n) m = _ := hwf.dataPhase_of_isDefault htarget
  cases hs : ((x n).master m).defSlaveSM with
  | hrespExtend =>
    left
    rw [hout, hs]
    rfl
  | idle =>
    right
    have htarget' : ((x (n + 1)).master m).target.isDefault (c.slotEnable m) = true := by
      rw [hx n, target_matrixNext hwf, hout, hs, if_neg (by simp), htarget]
    have hs' : ((x (n + 1)).master m).defSlaveSM = .hrespExtend := by
      rw [hx n]
      exact hwf.defSlave_next_of_asked hs htarget
    rw [masterOut, (wellFormed_run hx hreset m (n + 1)).dataPhase_of_isDefault htarget', hs']
    rfl

/-- **Never blocked for ever**: the master goes on again and again, if its slaves are ready again and
again. -/
theorem hready_again (hoften : ∀ s, c.slotEnable m s = true →
    ∀ k, ∃ j, k ≤ j ∧ ((inp j).slave s).HREADYOUT = true) (n : ℕ) :
    ∃ k, n ≤ k ∧ (masterOut c (x k) (inp k) m).HREADY_M = true := by
  have hwf := wellFormed_run hx hreset m n
  cases hdefault : ((x n).master m).target.isDefault (c.slotEnable m) with
  | true =>
    rcases hready_of_default hx hreset hdefault with hout | hout
    · exact ⟨n, le_rfl, hout⟩
    · exact ⟨n + 1, Nat.le_succ n, hout⟩
  | false =>
    cases htarget : ((x n).master m).target with
    | idle =>
      refine ⟨n, le_rfl, ?_⟩
      rw [masterOut, hwf.dataPhase_of_idle htarget]
    | reserved =>
      rw [htarget] at hdefault
      cases hdefault
    | slot s =>
      have hen : c.slotEnable m s = true := by simpa [htarget, Target.isDefault] using hdefault
      have hnext : ∀ k, ∃ d, ((inp (k + d)).slave s).HREADYOUT = true := by
        intro k
        obtain ⟨j, hj, hready⟩ := hoften s hen k
        obtain ⟨d, rfl⟩ := Nat.exists_eq_add_of_le hj
        exact ⟨d, hready⟩
      choose f hf using hnext
      obtain ⟨-, k, -, -, hk, -, hout⟩ :=
        hready_within hx hreset hsole hlock hremap htarget hen fun k _ => hf k
      exact ⟨k, hk, hout⟩

end Runs

end SidBridge.CoreAhbLite
