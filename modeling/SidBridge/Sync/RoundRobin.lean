import Mathlib.Data.List.FinRange
import Mathlib.Data.List.Pairwise
import Mathlib.Tactic.Common
import SidBridge.Sync.Run

/-!
# Round-robin arbitration

`n` parties ask for one resource.  The one served last has the lowest priority of the next round, and the
others follow it in cyclic order.  Nothing here depends on what the resource is:

* `turn` — how many parties come before another one in the round that starts after `last`;
* `rotation`, `nextInTurn` — the parties in the order of their turns, and the first that asks;
* `nextInTurn_eq_some_iff`, `nextInTurn_eq_none_iff` — who is served, and when nobody is;
* `turn_lt_of_served` — a party that waits moves forward with every service;
* `events_length_le_of_potential` — what lowers a potential with every event happens no more often than
  the potential allows, along any stretch of a run;
* `exists_events_length_ge` — what happens again and again happens any number of times.
-/

namespace Sync

variable {n : ℕ}

/-- How many parties come before `k` in the round that starts after `last`. -/
def turn (last k : Fin n) : ℕ :=
  if last < k then k - last - 1 else k + n - 1 - last

theorem turn_lt (last k : Fin n) : turn last k < n := by
  have := last.isLt
  have := k.isLt
  unfold turn
  split <;> omega

/-- The party served last comes last. -/
theorem turn_self (last : Fin n) : turn last last = n - 1 := by
  have := last.isLt
  simp only [turn, lt_irrefl, if_false]
  omega

theorem turn_injective (last : Fin n) : Function.Injective (turn last) := by
  intro j k h
  have := j.isLt
  have := k.isLt
  have := last.isLt
  simp only [turn, Fin.lt_def] at h
  apply Fin.ext
  split at h <;> split at h <;> omega

/-- **A party that waits moves forward.**  When another one is served out of the same round, the waiting
party is nearer in the round that follows. -/
theorem turn_lt_of_served {last j k : Fin n} (h : turn last j < turn last k) :
    turn j k < turn last k := by
  have := j.isLt
  have := k.isLt
  have := last.isLt
  simp only [turn, Fin.lt_def] at h ⊢
  split at h <;> split at h <;> split <;> omega

/-- The parties in the order of their turns after `last`. -/
def rotation (last : Fin n) : List (Fin n) :=
  (List.finRange n).filter (fun k => last < k) ++ (List.finRange n).filter (fun k => ¬last < k)

theorem mem_rotation (last k : Fin n) : k ∈ rotation last := by
  by_cases h : last < k <;> simp [rotation, h, le_of_not_gt]

theorem rotation_pairwise (last : Fin n) :
    (rotation last).Pairwise fun j k => turn last j < turn last k := by
  have hfin := List.pairwise_lt_finRange n
  rw [rotation, List.pairwise_append]
  refine ⟨?_, ?_, ?_⟩
  · rw [List.pairwise_filter]
    refine hfin.imp fun {j k} hjk hj hk => ?_
    simp only [decide_eq_true_eq, Fin.lt_def] at hjk hj hk
    simp only [turn, Fin.lt_def, hj, hk, if_true]
    omega
  · rw [List.pairwise_filter]
    refine hfin.imp fun {j k} hjk hj hk => ?_
    simp only [decide_eq_true_eq, Fin.lt_def] at hjk hj hk
    simp only [turn, Fin.lt_def, hj, hk, if_false]
    omega
  · intro j hj k hk
    have := j.isLt
    simp only [List.mem_filter, List.mem_finRange, true_and, decide_eq_true_eq, Fin.lt_def] at hj hk
    simp only [turn, Fin.lt_def, hj, hk, if_true, if_false]
    omega

/-- The party that is served: the first that asks, in the order of the turns. -/
def nextInTurn (last : Fin n) (req : Fin n → Bool) : Option (Fin n) := (rotation last).find? req

/-- Searching a list that is sorted by `f` finds the hit with the least `f`. -/
theorem find?_eq_some_iff_of_pairwise {α : Type*} {f : α → ℕ} {l : List α} {p : α → Bool} {a : α}
    (hl : l.Pairwise fun b c => f b < f c) :
    l.find? p = some a ↔ a ∈ l ∧ p a = true ∧ ∀ b ∈ l, f b < f a → p b = false := by
  induction l with
  | nil => simp
  | cons b l ih =>
    obtain ⟨hb, hl'⟩ := List.pairwise_cons.mp hl
    cases hpb : p b with
    | true =>
      rw [List.find?_cons_of_pos hpb, Option.some.injEq]
      constructor
      · intro hba
        subst hba
        refine ⟨List.mem_cons_self, hpb, fun c hc hlt => ?_⟩
        rcases List.mem_cons.mp hc with rfl | hc'
        · exact absurd hlt (lt_irrefl _)
        · exact absurd hlt (lt_asymm (hb c hc'))
      · intro hall
        obtain ⟨ha, -, hmin⟩ := hall
        rcases List.mem_cons.mp ha with rfl | ha'
        · rfl
        · rw [hmin b List.mem_cons_self (hb a ha')] at hpb
          cases hpb
    | false =>
      rw [List.find?_cons_of_neg (by simp [hpb]), ih hl']
      constructor
      · intro hall
        obtain ⟨ha, hpa, hmin⟩ := hall
        refine ⟨List.mem_cons_of_mem b ha, hpa, fun c hc hlt => ?_⟩
        rcases List.mem_cons.mp hc with rfl | hc'
        · exact hpb
        · exact hmin c hc' hlt
      · intro hall
        obtain ⟨ha, hpa, hmin⟩ := hall
        rcases List.mem_cons.mp ha with rfl | ha'
        · rw [hpb] at hpa
          cases hpa
        · exact ⟨ha', hpa, fun c hc hlt => hmin c (List.mem_cons_of_mem b hc) hlt⟩

/-- **Who is served**: the asking party whose turn is nearest. -/
theorem nextInTurn_eq_some_iff {last k : Fin n} {req : Fin n → Bool} :
    nextInTurn last req = some k ↔
      req k = true ∧ ∀ j, turn last j < turn last k → req j = false := by
  rw [nextInTurn, find?_eq_some_iff_of_pairwise (rotation_pairwise last)]
  simp [mem_rotation]

/-- **When nobody is served**: when nobody asks. -/
theorem nextInTurn_eq_none_iff {last : Fin n} {req : Fin n → Bool} :
    nextInTurn last req = none ↔ ∀ k, req k = false := by
  simp [nextInTurn, List.find?_eq_none, mem_rotation]

/-- A party that asks and is passed over comes nearer. -/
theorem turn_lt_of_nextInTurn {last j k : Fin n} {req : Fin n → Bool}
    (h : nextInTurn last req = some j) (hk : req k = true) (hne : j ≠ k) :
    turn j k < turn last k := by
  obtain ⟨-, hmin⟩ := nextInTurn_eq_some_iff.mp h
  refine turn_lt_of_served ?_
  rcases Nat.lt_trichotomy (turn last j) (turn last k) with hlt | heq | hgt
  · exact hlt
  · exact absurd (turn_injective last heq) hne
  · rw [hmin k hgt] at hk
    cases hk

/-! ### Potentials -/

/-- **Potentials.**  If every event of a stretch lowers a potential and nothing raises it, the stretch has
no more events than the potential it starts with. -/
theorem events_length_le_of_potential {α : Type*} {e : ℕ → Option α} {φ : ℕ → ℕ} {n : ℕ}
    (hstep : ∀ k, k < n → φ (k + 1) + (e k).toList.length ≤ φ k) :
    φ n + (events e n).length ≤ φ 0 := by
  induction n with
  | zero => simp
  | succ n ih =>
    have hbefore := ih fun k hk => hstep k (Nat.lt_succ_of_lt hk)
    have hnow := hstep n (Nat.lt_succ_self n)
    rw [events_succ, List.length_append]
    omega

/-- What happens again and again happens any number of times. -/
theorem exists_events_length_ge {α : Type*} {e : ℕ → Option α}
    (h : ∀ k, ∃ j, k ≤ j ∧ (e j).isSome = true) (t : ℕ) : ∃ n, t ≤ (events e n).length := by
  have hmono : ∀ k j, k ≤ j → (events e k).length ≤ (events e j).length := by
    intro k j hkj
    induction j, hkj using Nat.le_induction with
    | base => exact le_rfl
    | succ j _ ih =>
      rw [events_succ, List.length_append]
      exact ih.trans (Nat.le_add_right _ _)
  induction t with
  | zero => exact ⟨0, Nat.zero_le _⟩
  | succ t ih =>
    obtain ⟨n, hn⟩ := ih
    obtain ⟨j, hj, hsome⟩ := h n
    obtain ⟨v, hv⟩ := Option.isSome_iff_exists.mp hsome
    refine ⟨j + 1, ?_⟩
    rw [events_succ_some hv, List.length_append, List.length_singleton]
    exact Nat.succ_le_succ (hn.trans (hmono n j hj))

end Sync
