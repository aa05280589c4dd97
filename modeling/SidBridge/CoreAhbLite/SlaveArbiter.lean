import Mathlib.Tactic.Common
import SidBridge.Sync.RoundRobin

/-!
# The slave arbiter of CoreAHBLite

Every slave port of the bus core has an arbiter of its own (`COREAHBLITE_SLAVEARBITER`): sixteen states,
four for each of the four masters, and one combinational process that grants the address phase.

* `ArbState`, `slaveArbiter`, `arbStep` — the states, the process and the register;
* `grant_of_next_extends`, `grant_selects` — what a grant and the next state say about each other;
* `slaveArbiter_done` — in the states `MnDONE` the process is a round-robin choice;
* `lock_exclusive` — while a master holds its lock, nobody else is granted;
* `completed_before_grant` — without locks, a master that keeps asking is passed over three times at most.
-/

namespace SidBridge.CoreAhbLite

/-- The four master ports. -/
abbrev MasterId := Fin 4

/-- The states `MnEXTEND`, `MnDONE`, `MnLOCK` and `MnLOCKEXTEND`. -/
inductive ArbState where
  | extend (n : MasterId)
  | done (n : MasterId)
  | lock (n : MasterId)
  | lockExtend (n : MasterId)
  deriving DecidableEq, Repr

/-- The inputs of the process. -/
structure ArbIn where
  MADDRSEL : MasterId → Bool
  ADDRPHEND : Bool
  GATEDHMASTLOCK : MasterId → Bool

/-- Its outputs: the master whose address phase is in progress, if any, and the next state. -/
structure ArbOut where
  MASTERADDRINPROG : Option MasterId
  arbRegSMNextState : ArbState
  deriving DecidableEq, Repr

/-- A master that asks, in one of the states `MnDONE`. -/
def askingMaster (k : MasterId) (i : ArbIn) : ArbOut :=
  if i.GATEDHMASTLOCK k then
    ⟨none, .lock k⟩
  else
    ⟨some k, if i.ADDRPHEND then .done k else .extend k⟩

/-- The process `arbRegSMCurrentState, MADDRSEL, ADDRPHEND, MxGATEDHMASTLOCK`. -/
def slaveArbiter (s : ArbState) (i : ArbIn) : ArbOut :=
  match s with
  | .done n =>
      if i.MADDRSEL (n + 1) then askingMaster (n + 1) i
      else if i.MADDRSEL (n + 2) then askingMaster (n + 2) i
      else if i.MADDRSEL (n + 3) then askingMaster (n + 3) i
      else if i.MADDRSEL n then askingMaster n i
      else ⟨none, .done n⟩
  | .extend n => ⟨some n, if i.ADDRPHEND then .done n else .extend n⟩
  | .lock n =>
      if i.GATEDHMASTLOCK n then
        if i.MADDRSEL n then
          ⟨some n, if i.ADDRPHEND then .lock n else .lockExtend n⟩
        else
          ⟨none, .lock n⟩
      else
        ⟨none, .done n⟩
  | .lockExtend n => ⟨some n, if i.ADDRPHEND then .lock n else .lockExtend n⟩

/-- The state register after a reset. -/
def arbReset : ArbState := .done 3

/-- The state register. -/
def arbStep (s : ArbState) (i : ArbIn) : ArbState := (slaveArbiter s i).arbRegSMNextState

/-- Who is granted in a cycle. -/
def arbGrant (s : ArbState) (i : ArbIn) : Option MasterId := (slaveArbiter s i).MASTERADDRINPROG

/-- The address phase of `m` is granted and has to be granted again. -/
def ArbState.Extends (s : ArbState) (m : MasterId) : Prop := s = .extend m ∨ s = .lockExtend m

/-! ### The process -/

theorem rotation_masters (n : MasterId) : Sync.rotation n = [n + 1, n + 2, n + 3, n] := by
  revert n
  decide

/-- In the states `MnDONE` the process serves the first asking master after `n`. -/
theorem slaveArbiter_done (n : MasterId) (i : ArbIn) :
    slaveArbiter (.done n) i =
      match Sync.nextInTurn n i.MADDRSEL with
      | some k => askingMaster k i
      | none => ⟨none, .done n⟩ := by
  simp only [slaveArbiter, Sync.nextInTurn, rotation_masters]
  cases h1 : i.MADDRSEL (n + 1) <;> cases h2 : i.MADDRSEL (n + 2) <;>
    cases h3 : i.MADDRSEL (n + 3) <;> cases h4 : i.MADDRSEL n <;> simp [h1, h2, h3, h4]

/-- **What a grant rests on**: the master asks, or its address phase is not over. -/
theorem grant_selects {s : ArbState} {i : ArbIn} {m : MasterId} (h : arbGrant s i = some m) :
    i.MADDRSEL m = true ∨ s.Extends m := by
  cases s with
  | done n =>
    left
    rw [arbGrant, slaveArbiter_done] at h
    cases hnext : Sync.nextInTurn n i.MADDRSEL with
    | none => simp [hnext] at h
    | some k =>
      have hk := (Sync.nextInTurn_eq_some_iff.mp hnext).1
      cases hlock : i.GATEDHMASTLOCK k with
      | true => simp [hnext, askingMaster, hlock] at h
      | false =>
        obtain rfl : k = m := by simpa [hnext, askingMaster, hlock] using h
        exact hk
  | extend n =>
    right
    obtain rfl : n = m := by simpa [arbGrant, slaveArbiter] using h
    exact Or.inl rfl
  | lock n =>
    left
    cases hlock : i.GATEDHMASTLOCK n <;> cases hsel : i.MADDRSEL n <;>
      simp [arbGrant, slaveArbiter, hlock, hsel] at h
    rw [← h]
    exact hsel
  | lockExtend n =>
    right
    obtain rfl : n = m := by simpa [arbGrant, slaveArbiter] using h
    exact Or.inr rfl

/-- **What an extension rests on**: a grant whose address phase does not end. -/
theorem grant_of_next_extends {s : ArbState} {i : ArbIn} {m : MasterId}
    (h : (arbStep s i).Extends m) : arbGrant s i = some m ∧ i.ADDRPHEND = false := by
  unfold ArbState.Extends at h
  cases s with
  | done n =>
    rw [arbStep, slaveArbiter_done] at h
    rw [arbGrant, slaveArbiter_done]
    cases hnext : Sync.nextInTurn n i.MADDRSEL with
    | none => simp [hnext] at h
    | some k =>
      cases hlock : i.GATEDHMASTLOCK k <;> cases hend : i.ADDRPHEND <;>
        simp_all [askingMaster]
  | extend n =>
    cases hend : i.ADDRPHEND <;> simp_all [arbStep, arbGrant, slaveArbiter]
  | lock n =>
    cases hlock : i.GATEDHMASTLOCK n <;> cases hsel : i.MADDRSEL n <;>
      cases hend : i.ADDRPHEND <;> simp_all [arbStep, arbGrant, slaveArbiter]
  | lockExtend n =>
    cases hend : i.ADDRPHEND <;> simp_all [arbStep, arbGrant, slaveArbiter]

/-- A grant whose address phase does not end is extended. -/
theorem next_extends_of_grant {s : ArbState} {i : ArbIn} {m : MasterId}
    (h : arbGrant s i = some m) (hend : i.ADDRPHEND = false) : (arbStep s i).Extends m := by
  unfold ArbState.Extends
  cases s with
  | done n =>
    rw [arbGrant, slaveArbiter_done] at h
    rw [arbStep, slaveArbiter_done]
    cases hnext : Sync.nextInTurn n i.MADDRSEL with
    | none => simp [hnext] at h
    | some k => cases hlock : i.GATEDHMASTLOCK k <;> simp_all [askingMaster]
  | extend n => simp_all [arbStep, arbGrant, slaveArbiter]
  | lock n =>
    cases hlock : i.GATEDHMASTLOCK n <;> cases hsel : i.MADDRSEL n <;>
      simp_all [arbStep, arbGrant, slaveArbiter]
  | lockExtend n => simp_all [arbStep, arbGrant, slaveArbiter]

/-- What is extended is granted. -/
theorem grant_of_extends {s : ArbState} {m : MasterId} (h : s.Extends m) (i : ArbIn) :
    arbGrant s i = some m := by
  rcases h with rfl | rfl <;> rfl

/-- Without locks, somebody is granted whenever somebody asks. -/
theorem grant_isSome {s : ArbState} {i : ArbIn} {k : MasterId} (hs : ∀ n, s ≠ .lock n)
    (hlock : ∀ m, i.GATEDHMASTLOCK m = false) (hsel : i.MADDRSEL k = true) :
    (arbGrant s i).isSome = true := by
  cases s with
  | done n =>
    rw [arbGrant, slaveArbiter_done]
    cases hnext : Sync.nextInTurn n i.MADDRSEL with
    | none =>
      rw [Sync.nextInTurn_eq_none_iff.mp hnext k] at hsel
      cases hsel
    | some j => simp [askingMaster, hlock]
  | extend n => rfl
  | lock n => exact absurd rfl (hs n)
  | lockExtend n => rfl

/-! ### Runs of an arbiter -/

/-- How many address phases of others may end before the one of `k` is granted. -/
def ArbState.wait (s : ArbState) (k : MasterId) : ℕ :=
  match s with
  | .done n | .lock n => Sync.turn n k
  | .extend n | .lockExtend n => Sync.turn n k + 1

/-- The address phase that ends in a cycle. -/
def completed (s : ArbState) (i : ArbIn) : Option MasterId :=
  if i.ADDRPHEND then arbGrant s i else none

/-- **One cycle of waiting**: every address phase of another master brings `k` nearer. -/
theorem wait_step {s : ArbState} {i : ArbIn} {k : MasterId}
    (hlock : ∀ m, i.GATEDHMASTLOCK m = false) (hsel : i.MADDRSEL k = true)
    (hno : arbGrant s i ≠ some k) :
    (arbStep s i).wait k + (completed s i).toList.length ≤ s.wait k := by
  cases s with
  | done n =>
    cases hnext : Sync.nextInTurn n i.MADDRSEL with
    | none =>
      rw [Sync.nextInTurn_eq_none_iff.mp hnext k] at hsel
      cases hsel
    | some j =>
      have hne : j ≠ k := by
        rintro rfl
        simp [arbGrant, slaveArbiter_done, hnext, askingMaster, hlock] at hno
      have hlt := Sync.turn_lt_of_nextInTurn hnext hsel hne
      cases hend : i.ADDRPHEND <;>
        simp [arbStep, completed, arbGrant, slaveArbiter_done, hnext, askingMaster, hlock, hend,
          ArbState.wait] <;> omega
  | extend n =>
    cases hend : i.ADDRPHEND <;>
      simp [arbStep, completed, arbGrant, slaveArbiter, hend, ArbState.wait]
  | lock n =>
    cases hend : i.ADDRPHEND <;>
      simp [arbStep, completed, arbGrant, slaveArbiter, hlock, hend, ArbState.wait]
  | lockExtend n =>
    cases hend : i.ADDRPHEND <;>
      simp [arbStep, completed, arbGrant, slaveArbiter, hend, ArbState.wait]

/-- A master that is not granted has at most three others before it. -/
theorem wait_le {s : ArbState} {i : ArbIn} {k : MasterId} (hno : arbGrant s i ≠ some k) :
    s.wait k ≤ 3 := by
  have hturn : ∀ n : MasterId, Sync.turn n k ≤ 3 := fun n => Nat.lt_succ_iff.mp (Sync.turn_lt n k)
  have hother : ∀ n : MasterId, n ≠ k → Sync.turn n k + 1 ≤ 3 := by
    intro n hn
    have hlast : Sync.turn n k ≠ Sync.turn n n := fun h => hn (Sync.turn_injective n h).symm
    rw [Sync.turn_self] at hlast
    have := hturn n
    omega
  cases s with
  | done n => exact hturn n
  | lock n => exact hturn n
  | extend n => exact hother n fun h => hno (by rw [← h]; rfl)
  | lockExtend n => exact hother n fun h => hno (by rw [← h]; rfl)

section Runs

variable {x : ℕ → ArbState} {inp : ℕ → ArbIn} (hx : Sync.IsRun arbStep x inp)

include hx

/-- A lock is kept while the master asks for it. -/
theorem lock_kept {m : MasterId} {a b : ℕ} (hab : a ≤ b) (hlock : x a = .lock m)
    (hkeep : ∀ k, a ≤ k → k < b → (inp k).GATEDHMASTLOCK m = true) :
    x b = .lock m ∨ x b = .lockExtend m := by
  induction b, hab using Nat.le_induction with
  | base => exact Or.inl hlock
  | succ b hb ih =>
    have hm := hkeep b hb (Nat.lt_succ_self b)
    rw [hx b]
    rcases ih fun k hk hlt => hkeep k hk (Nat.lt_succ_of_lt hlt) with h | h <;> rw [h]
    · cases hsel : (inp b).MADDRSEL m <;> cases hend : (inp b).ADDRPHEND <;>
        simp [arbStep, slaveArbiter, hm, hsel, hend]
    · cases hend : (inp b).ADDRPHEND <;> simp [arbStep, slaveArbiter, hend]

/-- **A lock is exclusive**: while it lasts its master is granted whenever it asks, and nobody else
is. -/
theorem lock_exclusive {m : MasterId} {a b : ℕ} (hab : a ≤ b) (hlock : x a = .lock m)
    (hkeep : ∀ k, a ≤ k → k ≤ b → (inp k).GATEDHMASTLOCK m = true) :
    (∀ k, arbGrant (x b) (inp b) = some k → m = k) ∧
      ((inp b).MADDRSEL m = true → arbGrant (x b) (inp b) = some m) := by
  have hm := hkeep b hab le_rfl
  rcases lock_kept hx hab hlock fun k hk hlt => hkeep k hk (Nat.le_of_lt hlt) with h | h <;> rw [h]
  · cases hsel : (inp b).MADDRSEL m <;> simp [arbGrant, slaveArbiter, hm, hsel]
  · simp [arbGrant, slaveArbiter]

/-- **Bounded waiting.**  Over any stretch in which a master asks in every cycle and is never granted,
and nobody locks, at most three address phases end. -/
theorem completed_before_grant {k : MasterId} {n : ℕ}
    (hsel : ∀ i, i < n → (inp i).MADDRSEL k = true)
    (hlock : ∀ i, i < n → ∀ m, (inp i).GATEDHMASTLOCK m = false)
    (hno : ∀ i, i < n → arbGrant (x i) (inp i) ≠ some k) :
    (Sync.events (fun i => completed (x i) (inp i)) n).length ≤ 3 := by
  rcases Nat.eq_zero_or_pos n with rfl | hpos
  · exact Nat.zero_le 3
  have hsum := Sync.events_length_le_of_potential (e := fun i => completed (x i) (inp i))
    (φ := fun i => (x i).wait k) (n := n) fun i hi => by
      rw [hx i]
      exact wait_step (hlock i hi) (hsel i hi) (hno i hi)
  have hstart := wait_le (hno 0 hpos)
  omega

end Runs

/-- All masters ask in every cycle; the second one locks up to cycle 3. -/
def contention (n : ℕ) : ArbIn where
  MADDRSEL _ := true
  ADDRPHEND := true
  GATEDHMASTLOCK m := decide (m.val = 1) && decide (n < 4)

/-- The arbiter under it. -/
def contentionRun : ℕ → ArbState := Sync.run arbStep arbReset contention

/-- The lock is taken in cycle 1, and in cycle 3 still nobody else is granted. -/
theorem lock_exclusive_contention : arbGrant (contentionRun 3) (contention 3) = some 1 :=
  (lock_exclusive (Sync.isRun_run _ _ _) (m := 1) (a := 2) (b := 3) (by omega) (by decide)
    (fun k _ hk => by simp [contention]; omega)).2 rfl

/-- After the lock, the first master waits for the two others. -/
theorem completed_before_grant_contention :
    (Sync.events (fun i => completed (contentionRun (5 + i)) (contention (5 + i))) 2).length ≤ 3 :=
  completed_before_grant (Sync.isRun_run _ _ _ |>.shift 5) (k := 0) (fun _ _ => rfl)
    (fun i _ m => by simp [contention]; omega) (by decide)

end SidBridge.CoreAhbLite
