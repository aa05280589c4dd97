import Mathlib.Tactic.Common
import SidBridge.CoreAhbLite.MatrixSafety

/-!
# Every transfer is delivered once, in order

A master sees its address phase accepted in one cycle; a slave takes an address phase in the same cycle or
in a later one.  On a bus that keeps to the protocol the two views never drift apart.

* `issued`, `startedBy`, `delivered`, `pending` — the transfers a master sees accepted, a slave takes, the
  matrix hands over, and a master stage keeps;
* `startedBy_eq_some_iff` — what a slave takes, and from whom;
* `handed_over`, `delivery_step`, `MatrixDelivers`, `matrixDelivers` — one edge, and the law of a run;
* `Owns`, `Underway`, `underway_next` — where a transfer is until its data phase ends;
* `transaction` — when a master sees its data phase end, it has the answer to its own transfer;
* `default_answer` — and an error, if there is no slave to answer.
-/

namespace SidBridge.CoreAhbLite

section Events

variable (c : MatrixGenerics) (x : MatrixReg) (i : MatrixIn)

/-- What the address phase of a master asks for: a slot or none, and the signals as the slave side is to
see them. -/
def request (m : MasterId) : Target × AddrPhase :=
  (.ofDecoded (decodedSlot c.map (i.master m).phase.HADDR (remapOf i m)),
    { (i.master m).phase with
      HADDR := (addressDecoder c.map (i.master m).phase.HADDR (remapOf i m)).ABSOLUTEADDR })

/-- The transfer the master sees accepted. -/
def issued (m : MasterId) : Option (Target × AddrPhase) :=
  if (i.master m).phase.HTRANS && (masterOut c x i m).HREADY_M then some (request c i m) else none

/-- The transfer a slave takes from master `m`: its port shows a selection, a transfer and ready, in a
cycle in which the address phase of `m` is in progress. -/
def startedBy (m : MasterId) (s : SlotId) : Option AddrPhase :=
  let o := slaveOut c x i s
  if o.HSEL && o.phase.HTRANS && o.HREADY_S && decide (grantOf c x i s = some m) then some o.phase
  else none

/-- The transfer of master `m` that a slave takes, or the default slave. -/
def delivered (m : MasterId) : Option (Target × AddrPhase) :=
  let t := addrTargetOf c x i m
  if t.isDefault (c.slotEnable m) then
    if (masterOut c x i m).PREVDATASLAVEREADY then some (t, gatedOf c x i m) else none
  else
    t.slot?.bind fun s => (startedBy c x i m s).map fun phase => (t, phase)

/-- The transfer the stage of master `m` keeps. -/
def pending (m : MasterId) : List (Target × AddrPhase) :=
  if (x.master m).addrRegSM = .registered then [(addrTargetOf c x i m, gatedOf c x i m)] else []

end Events

theorem pending_length_le_one (c : MatrixGenerics) (x : MatrixReg) (i : MatrixIn) (m : MasterId) :
    (pending c x i m).length ≤ 1 := by
  unfold pending
  split <;> simp

/-- A transfer to a connected slot is delivered when its slave takes it. -/
theorem delivered_of_slot {c : MatrixGenerics} {x : MatrixReg} {i : MatrixIn} {m : MasterId}
    {s : SlotId} (hen : c.slotEnable m s = true) (htarget : addrTargetOf c x i m = .slot s) :
    delivered c x i m = (startedBy c x i m s).map fun phase => (.slot s, phase) := by
  simp [delivered, htarget, Target.isDefault, Target.slot?, hen]

namespace MatrixInv

variable {c : MatrixGenerics} {x : MatrixReg} {i i' : MatrixIn} {m : MasterId} {s : SlotId}
  (h : MatrixInv c x i)

include h

/-- **What a slave takes** is the address phase of a master that asks for it, whose data phase before it
is over. -/
theorem startedBy_eq_some_iff {phase : AddrPhase} :
    startedBy c x i m s = some phase ↔
      Takes c x i m s ∧ (masterOut c x i m).PREVDATASLAVEREADY = true ∧
        phase = gatedOf c x i m := by
  by_cases hgrant : grantOf c x i s = some m
  · obtain ⟨hen, htarget⟩ := h.asks_of_grant hgrant
    obtain ⟨hsel, hphase⟩ := h.phase_of_grant hgrant
    have htrans : (gatedOf c x i m).HTRANS = true := (decodedSlot_of_addrTargetOf htarget).1
    have hready : (slaveOut c x i s).HREADY_S = (i.slave s).HREADYOUT := intHREADYOUT_of_enabled hen
    simp only [startedBy, Takes, hsel, hready, hgrant, decide_true, Bool.true_and, Bool.and_true,
      true_and, Bool.and_eq_true]
    constructor
    · intro hall
      split at hall
      · rename_i hcond
        have hprev := h.prev_of_htrans hgrant hcond.2 hcond.1
        rw [Option.some.injEq] at hall
        refine ⟨hcond.2, hprev, ?_⟩
        rw [← hall, hphase, hprev, Bool.true_or, ← htrans]
      · cases hall
    · intro hall
      obtain ⟨hout, hprev, rfl⟩ := hall
      have hsame : (slaveOut c x i s).phase = gatedOf c x i m := by
        rw [hphase, hprev, Bool.true_or, ← htrans]
      rw [hsame, if_pos ⟨htrans, hout⟩]
  · simp [startedBy, Takes, hgrant]

/-- Without a slave that takes it, or with an earlier data phase open, nothing is taken. -/
theorem startedBy_eq_none (hno : ¬(Takes c x i m s ∧ (masterOut c x i m).PREVDATASLAVEREADY = true)) :
    startedBy c x i m s = none := by
  rw [Option.eq_none_iff_forall_ne_some]
  intro phase hphase
  obtain ⟨htakes, hprev, -⟩ := h.startedBy_eq_some_iff.mp hphase
  exact hno ⟨htakes, hprev⟩

/-- What the master presents is what its stage hands on, if the stage keeps nothing. -/
theorem request_of_idle (hs : (x.master m).addrRegSM = .idle)
    (htrans : (i.master m).phase.HTRANS = true) :
    request c i m = (addrTargetOf c x i m, gatedOf c x i m) := by
  have hpre := (h.wf m).pregated_of_idle (p := (i.master m).phase) hs
  simp only [request, addrTargetOf, addrTarget, gatedOf, gated, addressDecode, hpre, htrans, if_true]

/-- **What a master sees accepted** is what its stage hands on, in a cycle in which it keeps nothing. -/
theorem issued_eq_some_iff {t : Target × AddrPhase} :
    issued c x i m = some t ↔
      (x.master m).addrRegSM = .idle ∧ (i.master m).phase.HTRANS = true ∧
        (masterOut c x i m).HREADY_M = true ∧ t = (addrTargetOf c x i m, gatedOf c x i m) := by
  constructor
  · intro hissue
    have hgo : (i.master m).phase.HTRANS = true ∧ (masterOut c x i m).HREADY_M = true := by
      by_contra hno
      simp only [issued, Bool.and_eq_true, hno, if_false] at hissue
      cases hissue
    have hs : (x.master m).addrRegSM = .idle := by
      cases hs : (x.master m).addrRegSM with
      | idle => rfl
      | registered =>
        rw [h.hready_of_registered hs] at hgo
        cases hgo.2
    rw [issued, hgo.1, hgo.2, Bool.and_self, if_pos rfl, h.request_of_idle hs hgo.1,
      Option.some.injEq] at hissue
    exact ⟨hs, hgo.1, hgo.2, hissue.symm⟩
  · rintro ⟨hs, htrans, hready, rfl⟩
    rw [issued, htrans, hready, Bool.and_self, if_pos rfl, h.request_of_idle hs htrans]

/-- Nothing is delivered while an earlier data phase is open. -/
theorem delivered_eq_none_of_stall (hstall : (masterOut c x i m).PREVDATASLAVEREADY = false) :
    delivered c x i m = none := by
  simp only [delivered, hstall]
  split
  · rfl
  · cases (addrTargetOf c x i m).slot? with
    | none => rfl
    | some s =>
      rw [Option.bind_some, h.startedBy_eq_none (by simp [hstall])]
      rfl

/-- An address phase that waits in its stage is kept as it is. -/
theorem pending_next_of_waits (hedge : BusEdge c x i i') (hen : c.slotEnable m s = true)
    (htarget : addrTargetOf c x i m = .slot s) (hwait : ¬Takes c x i m s)
    (hs' : ((matrixNext c x i).master m).addrRegSM = .registered) :
    pending c (matrixNext c x i) i' m = [(addrTargetOf c x i m, gatedOf c x i m)] := by
  have hpre := h.pregated_kept hedge hen htarget hwait
  rw [pending, if_pos hs', h.addrTargetOf_kept hedge hen htarget hwait, htarget]
  simp only [gatedOf, gated, addressDecode, hpre, remapOf, hedge.remap_stable]

/-- The data phase before an address phase that goes on is over when its slave takes it. -/
theorem prev_of_takes (hen : c.slotEnable m s = true) (htarget : addrTargetOf c x i m = .slot s)
    (hgoes : GoesOn c x i m)
    (htakes : Takes c x i m s) : (masterOut c x i m).PREVDATASLAVEREADY = true := by
  rcases hgoes with hs | ⟨hs, hready⟩
  · -- a kept address is for the slave of the data phase
    obtain ⟨t, -, ht, hdata, -⟩ := h.kept m hs
    rw [htarget, Target.slot.injEq] at ht
    rw [masterOut_of_slot (h.wf m) hen (ht ▸ hdata)]
    exact htakes.2
  · rw [← h.hready_of_idle hs, hready]

/-- **An address phase that goes on** is delivered at once, or kept. -/
theorem handed_over (hedge : BusEdge c x i i')
    (hgoes : GoesOn c x i m)
    (hasks : addrTargetOf c x i m ≠ .idle) :
    [(addrTargetOf c x i m, gatedOf c x i m)] =
      (delivered c x i m).toList ++ pending c (matrixNext c x i) i' m := by
  by_cases hslot : ∃ s, addrTargetOf c x i m = .slot s ∧ c.slotEnable m s = true
  · obtain ⟨s, htarget, hen⟩ := hslot
    rw [delivered_of_slot hen htarget]
    by_cases htakes : Takes c x i m s
    · have hprev := h.prev_of_takes hen htarget hgoes htakes
      rw [h.startedBy_eq_some_iff.mpr ⟨htakes, hprev, rfl⟩, pending,
        if_neg (by rw [h.idle_next_of_takes htarget htakes]; simp), htarget]
      rfl
    · have hs' := h.registered_next_iff.mpr ⟨hgoes, s, hen, htarget, htakes⟩
      rw [h.startedBy_eq_none fun hall => htakes hall.1,
        h.pending_next_of_waits hedge hen htarget htakes hs']
      rfl
  · -- a slot that is not connected, or no slot: the default slave is there at once
    have hdefault : (addrTargetOf c x i m).isDefault (c.slotEnable m) = true := by
      cases htarget : addrTargetOf c x i m with
      | idle => exact absurd htarget hasks
      | reserved => rfl
      | slot s =>
        by_contra hen
        exact hslot ⟨s, htarget, by simpa [Target.isDefault] using hen⟩
    have hidle' : ¬((matrixNext c x i).master m).addrRegSM = .registered := by
      intro hreg
      obtain ⟨-, s, hen, htarget, -⟩ := h.registered_next_iff.mp hreg
      exact hslot ⟨s, htarget, hen⟩
    have hprev : (masterOut c x i m).PREVDATASLAVEREADY = true := by
      rcases hgoes with hs | ⟨hs, hready⟩
      · obtain ⟨s, hen, htarget, -⟩ := h.kept m hs
        exact absurd ⟨s, htarget, hen⟩ hslot
      · rw [← h.hready_of_idle hs, hready]
    rw [delivered, hdefault, if_pos rfl, hprev, if_pos rfl, pending, if_neg hidle']
    rfl

/-- **One edge**: what is kept or issued is delivered or kept. -/
theorem delivery_step (hedge : BusEdge c x i i') :
    pending c x i m ++ (issued c x i m).toList =
      (delivered c x i m).toList ++ pending c (matrixNext c x i) i' m := by
  cases hs : (x.master m).addrRegSM with
  | registered =>
    obtain ⟨s, -, htarget, -⟩ := h.kept m hs
    have hissued : issued c x i m = none := by simp [issued, h.hready_of_registered hs]
    rw [hissued, Option.toList_none, List.append_nil, pending, if_pos hs]
    exact h.handed_over hedge (Or.inl hs) (by rw [htarget]; simp)
  | idle =>
    have hnil : pending c x i m = [] := if_neg (by rw [hs]; simp)
    rw [hnil, List.nil_append]
    by_cases htrans : (i.master m).phase.HTRANS = true
    · cases hready : (masterOut c x i m).HREADY_M with
      | true =>
        rw [h.issued_eq_some_iff.mpr ⟨hs, htrans, hready, rfl⟩]
        refine h.handed_over hedge (Or.inr ⟨hs, hready⟩) ?_
        rw [addrTargetOf, addrTarget, (h.wf m).pregated_of_idle hs, if_pos htrans]
        cases decodedSlot c.map (i.master m).phase.HADDR (remapOf i m) <;> simp [Target.ofDecoded]
      | false =>
        have hidle' : ¬((matrixNext c x i).master m).addrRegSM = .registered := by
          intro hreg
          rcases (h.registered_next_iff.mp hreg).1 with hreg' | ⟨-, hready'⟩
          · rw [hs] at hreg'
            cases hreg'
          · rw [hready] at hready'
            cases hready'
        rw [h.delivered_eq_none_of_stall ((h.hready_of_idle hs).symm.trans hready), pending,
          if_neg hidle', issued, hready, Bool.and_false]
        rfl
    · have hnone : addrTargetOf c x i m = .idle := by
        rw [addrTargetOf, addrTarget, (h.wf m).pregated_of_idle hs, if_neg htrans]
      have hidle' : ¬((matrixNext c x i).master m).addrRegSM = .registered := by
        intro hreg
        obtain ⟨-, s, -, htarget, -⟩ := h.registered_next_iff.mp hreg
        rw [hnone] at htarget
        cases htarget
      simp [issued, htrans, delivered, hnone, Target.isDefault, Target.slot?, pending, hidle']

end MatrixInv

/-- **Delivery.**  In every run, for every master: what it saw accepted is what was handed over, in order,
less one transfer that its stage keeps while the master waits; and a slave takes nothing else. -/
structure MatrixDelivers (c : MatrixGenerics) (x : ℕ → MatrixReg) (inp : ℕ → MatrixIn) : Prop where
  in_order : ∀ m n, ∃ p,
    Sync.events (fun k => issued c (x k) (inp k) m) n =
        Sync.events (fun k => delivered c (x k) (inp k) m) n ++ p ∧
      p.length ≤ 1 ∧ (p ≠ [] → (masterOut c (x n) (inp n) m).HREADY_M = false)
  taken : ∀ n m s phase, startedBy c (x n) (inp n) m s = some phase →
    c.slotEnable m s = true ∧ delivered c (x n) (inp n) m = some (.slot s, phase)

/-- The data phase of master `m` is open at slot `s`, and the slave stage works for it. -/
def Owns (x : MatrixReg) (m : MasterId) (s : SlotId) : Prop :=
  (x.master m).addrRegSM = .idle ∧ (x.master m).target = .slot s ∧
    (x.slave s).masterDataInProg = some m

section Ports

variable {c : MatrixGenerics} {x : MatrixReg} {i i' : MatrixIn} {m : MasterId} {s : SlotId}

/-- **In its data phase** a master sees the slave, and the slave sees the data of that master. -/
theorem Owns.ports (hwf : (x.master m).WellFormed (c.slotEnable m)) (hen : c.slotEnable m s = true)
    (howns : Owns x m s) :
    masterOut c x i m =
        { HREADY_M := (i.slave s).HREADYOUT
          HRESP := (i.slave s).HRESP
          HRDATA := (i.slave s).HRDATA
          PREVDATASLAVEREADY := (i.slave s).HREADYOUT } ∧
      (slaveOut c x i s).HWDATA = (i.master m).HWDATA := by
  obtain ⟨-, htarget, hdata⟩ := howns
  constructor
  · simp [masterOut_of_slot hwf hen htarget, hdata]
  · simp [slaveOut, slaveStage, slaveStageIn, hdata, hen]

/-- A transfer that is taken has its data phase in the next cycle. -/
theorem MatrixInv.owns_of_started (h : MatrixInv c x i) {phase : AddrPhase}
    (hstart : startedBy c x i m s = some phase) : Owns (matrixNext c x i) m s := by
  obtain ⟨htakes, hprev, -⟩ := h.startedBy_eq_some_iff.mp hstart
  obtain ⟨hen, htarget⟩ := h.asks_of_grant htakes.1
  refine ⟨h.idle_next_of_takes htarget htakes, ?_, ?_⟩
  · rw [target_matrixNext (h.wf m), hprev, if_pos rfl, htarget]
  · rw [masterDataInProg_matrixNext hen, if_pos htakes.2]
    exact htakes.1

/-- A data phase stays open while the slave takes more time. -/
theorem MatrixInv.owns_next (h : MatrixInv c x i) (hen : c.slotEnable m s = true)
    (howns : Owns x m s) (hbusy : (i.slave s).HREADYOUT = false) : Owns (matrixNext c x i) m s := by
  obtain ⟨hs, htarget, hdata⟩ := howns
  obtain ⟨hs', htarget'⟩ := h.waits_next hs htarget hen hbusy
  refine ⟨hs', htarget', ?_⟩
  rw [masterDataInProg_matrixNext hen, if_neg (by simp [hbusy]), hdata]

end Ports

section Transaction

variable {c : MatrixGenerics} {x : ℕ → MatrixReg} {inp : ℕ → MatrixIn} {m : MasterId} {s : SlotId}
  {phase : AddrPhase} (h : ∀ n, ConformsUpTo c x inp n)

/-- Where the transfer `phase`, accepted in cycle `a`, is in cycle `j`: kept by its stage, or in the data
phase since some cycle `o`. -/
def Underway (c : MatrixGenerics) (x : ℕ → MatrixReg) (inp : ℕ → MatrixIn) (m : MasterId) (s : SlotId)
    (phase : AddrPhase) (a j : ℕ) : Prop :=
  (((x j).master m).addrRegSM = .registered ∧ addrTargetOf c (x j) (inp j) m = .slot s ∧
      gatedOf c (x j) (inp j) m = phase) ∨
    ∃ o, a ≤ o ∧ o < j ∧ startedBy c (x o) (inp o) m s = some phase ∧
      ∀ k, o < k → k ≤ j → Owns (x k) m s

include h

/-- An address phase that goes on in cycle `j` is under way in the next. -/
theorem underway_of_goes {a j : ℕ} (haj : a ≤ j) (hen : c.slotEnable m s = true)
    (hgoes : GoesOn c (x j) (inp j) m)
    (htarget : addrTargetOf c (x j) (inp j) m = .slot s)
    (hphase : gatedOf c (x j) (inp j) m = phase) : Underway c x inp m s phase a (j + 1) := by
  have hinv := matrixInv_run (h j)
  have hedge := (h (j + 1)).edge j (Nat.lt_succ_self j)
  have hover := hinv.handed_over hedge hgoes (by rw [htarget]; simp)
  by_cases htakes : Takes c (x j) (inp j) m s
  · right
    -- nothing is kept, so it is delivered
    have hnil : pending c (matrixNext c (x j) (inp j)) (inp (j + 1)) m = [] :=
      if_neg (by rw [hinv.idle_next_of_takes htarget htakes]; simp)
    rw [hnil, List.append_nil, delivered_of_slot hen htarget, htarget, hphase] at hover
    cases hstart : startedBy c (x j) (inp j) m s with
    | none => simp [hstart] at hover
    | some phase' =>
      obtain rfl : phase = phase' := by simpa [hstart] using hover
      refine ⟨j, haj, Nat.lt_succ_self j, hstart, fun k hk hle => ?_⟩
      obtain rfl : k = j + 1 := by omega
      rw [(h 0).isRun j]
      exact hinv.owns_of_started hstart
  · left
    rw [(h 0).isRun j]
    have hs' := hinv.registered_next_iff.mpr ⟨hgoes, s, hen, htarget, htakes⟩
    have hwaits := hinv.pending_next_of_waits hedge hen htarget htakes hs'
    rw [pending, if_pos hs', List.singleton_inj, Prod.mk.injEq, htarget, hphase] at hwaits
    exact ⟨hs', hwaits⟩

/-- **One cycle of waiting**: a transfer under way whose master waits is under way in the next cycle. -/
theorem underway_next {a j : ℕ} (haj : a ≤ j) (hen : c.slotEnable m s = true)
    (hway : Underway c x inp m s phase a j) (hwait : (masterOut c (x j) (inp j) m).HREADY_M = false) :
    Underway c x inp m s phase a (j + 1) := by
  have hinv := matrixInv_run (h j)
  rcases hway with ⟨hs, htarget, hphase⟩ | ⟨o, hao, hoj, hstart, howns⟩
  · exact underway_of_goes h haj hen (Or.inl hs) htarget hphase
  · right
    have hnow := howns j hoj le_rfl
    have hbusy : ((inp j).slave s).HREADYOUT = false := by
      rw [(hnow.ports (i := inp j) (hinv.wf m) hen).1] at hwait
      exact hwait
    refine ⟨o, hao, Nat.lt_succ_of_lt hoj, hstart, fun k hk hle => ?_⟩
    rcases Nat.eq_or_lt_of_le hle with rfl | hlt
    · rw [(h 0).isRun j]
      exact hinv.owns_next hen hnow hbusy
    · exact howns k hk (Nat.lt_succ_iff.mp hlt)

/-- **The answer belongs to the transfer.**  A master that sees a transfer to a connected slot accepted in
cycle `a`, and is told to wait until cycle `k`, sees in cycle `k` the end of its own data phase: the slave
has taken that very address phase in between, has had the data of that master since, and it is its last
data cycle too. -/
theorem transaction {a k : ℕ} (hen : c.slotEnable m s = true)
    (hissue : issued c (x a) (inp a) m = some (.slot s, phase)) (hak : a < k)
    (hwait : ∀ j, a < j → j < k → (masterOut c (x j) (inp j) m).HREADY_M = false)
    (hend : (masterOut c (x k) (inp k) m).HREADY_M = true) :
    ∃ o, a ≤ o ∧ o < k ∧ startedBy c (x o) (inp o) m s = some phase ∧
      (∀ j, o < j → j ≤ k →
        (slaveOut c (x j) (inp j) s).HWDATA = ((inp j).master m).HWDATA ∧
          (((inp j).slave s).HREADYOUT = true ↔ j = k)) ∧
      (masterOut c (x k) (inp k) m).HRDATA = ((inp k).slave s).HRDATA ∧
      (masterOut c (x k) (inp k) m).HRESP = ((inp k).slave s).HRESP := by
  have hway : ∀ j, a < j → j ≤ k → Underway c x inp m s phase a j := by
    intro j haj
    induction j, haj using Nat.le_induction with
    | base =>
      intro _
      obtain ⟨hs, -, hready, ht⟩ := (matrixInv_run (h a)).issued_eq_some_iff.mp hissue
      rw [Prod.mk.injEq] at ht
      exact underway_of_goes h le_rfl hen (Or.inr ⟨hs, hready⟩) ht.1.symm ht.2.symm
    | succ j haj ih =>
      intro hle
      exact underway_next h (Nat.le_of_lt haj) hen (ih (Nat.le_of_lt hle)) (hwait j haj hle)
  have hinv := fun j => matrixInv_run (h j)
  rcases hway k hak le_rfl with ⟨hs, -, -⟩ | ⟨o, hao, hok, hstart, howns⟩
  · rw [(hinv k).hready_of_registered hs] at hend
    cases hend
  · have hports := fun j hoj hjk =>
      (howns j hoj hjk).ports (i := inp j) ((hinv j).wf m) hen
    refine ⟨o, hao, hok, hstart, fun j hoj hjk => ⟨(hports j hoj hjk).2, ?_⟩, ?_, ?_⟩
    · have hsame : ((inp j).slave s).HREADYOUT = (masterOut c (x j) (inp j) m).HREADY_M := by
        rw [(hports j hoj hjk).1]
      rw [hsame]
      constructor
      · intro hready
        by_contra hne
        rw [hwait j (by omega) (by omega)] at hready
        cases hready
      · rintro rfl
        exact hend
    · rw [(hports k hok le_rfl).1]
    · rw [(hports k hok le_rfl).1]

omit h phase in
/-- The third master of the rush has its answer in cycle 4. -/
theorem transaction_rush : (masterOut sharedMatrix (rushRun 4) (rush 4) 2).HRDATA = 4#32 := by
  have hissue : issued sharedMatrix (rushRun 0) (rush 0) 2 =
      some (.slot 0, { AddrPhase.zero with HTRANS := true }) := by decide +kernel
  have hwait : ∀ j, 0 < j → j < 4 → (masterOut sharedMatrix (rushRun j) (rush j) 2).HREADY_M = false := by
    intro j hj hlt
    obtain rfl | rfl | rfl : j = 1 ∨ j = 2 ∨ j = 3 := by omega
    all_goals decide +kernel
  obtain ⟨-, -, -, -, -, hdata, -⟩ :=
    transaction conformsUpTo_rushRun rfl hissue (by omega) hwait (by decide +kernel)
  rw [hdata]
  rfl

omit phase in
/-- **The answer when nobody is there.**  A transfer to a reserved address or to a slot that is not
connected gets the two-cycle error response of the bus, and no data. -/
theorem default_answer {a : ℕ} {t : Target × AddrPhase}
    (hissue : issued c (x a) (inp a) m = some t) (hdefault : t.1.isDefault (c.slotEnable m) = true) :
    masterOut c (x (a + 1)) (inp (a + 1)) m =
        { HREADY_M := false, HRESP := true, HRDATA := 0, PREVDATASLAVEREADY := false } ∧
      masterOut c (x (a + 2)) (inp (a + 2)) m =
        { HREADY_M := true, HRESP := true, HRDATA := 0, PREVDATASLAVEREADY := true } := by
  have hinv := fun j => matrixInv_run (h j)
  obtain ⟨hs, htrans, hready, ht⟩ := (hinv a).issued_eq_some_iff.mp hissue
  have htarget : ((x (a + 1)).master m).target = t.1 := by
    rw [(h 0).isRun a, target_matrixNext ((hinv a).wf m), ← (hinv a).hready_of_idle hs, hready,
      if_pos rfl, ht]
  -- the response before it, if it was one of the default slave, is over
  have hsm : ((x (a + 1)).master m).defSlaveSM = .idle := by
    rw [(h 0).isRun a]
    exact ((hinv a).wf m).defSlave_next_of_ready hready
  have hdefault' : ((x (a + 1)).master m).target.isDefault (c.slotEnable m) = true := by
    rw [htarget, hdefault]
  have hfirst : masterOut c (x (a + 1)) (inp (a + 1)) m =
      { HREADY_M := false, HRESP := true, HRDATA := 0, PREVDATASLAVEREADY := false } := by
    rw [masterOut, ((hinv (a + 1)).wf m).dataPhase_of_isDefault hdefault', hsm]
    rfl
  refine ⟨hfirst, ?_⟩
  have htarget'' : ((x (a + 2)).master m).target.isDefault (c.slotEnable m) = true := by
    rw [(h 0).isRun (a + 1), target_matrixNext ((hinv (a + 1)).wf m), hfirst, if_neg (by simp),
      hdefault']
  have hsm' : ((x (a + 2)).master m).defSlaveSM = .hrespExtend := by
    rw [(h 0).isRun (a + 1)]
    exact ((hinv (a + 1)).wf m).defSlave_next_of_asked hsm hdefault'
  rw [masterOut, ((hinv (a + 2)).wf m).dataPhase_of_isDefault htarget'', hsm']
  rfl

omit h phase in
/-- The stray read of the rush. -/
theorem default_answer_rush : (masterOut sharedMatrix (rushRun 1) (rush 1) 3).HRESP = true ∧
    (masterOut sharedMatrix (rushRun 2) (rush 2) 3).HREADY_M = true := by
  have hissue : issued sharedMatrix (rushRun 0) (rush 0) 3 =
      some (.slot 8, { AddrPhase.zero with HADDR := 0x80000000#32, HTRANS := true }) := by
    decide +kernel
  have h := default_answer conformsUpTo_rushRun hissue (by decide)
  exact ⟨by rw [h.1], by rw [h.2]⟩

end Transaction

end SidBridge.CoreAhbLite
