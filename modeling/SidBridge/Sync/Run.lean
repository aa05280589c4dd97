import Mathlib.Tactic.Common
import Mathlib.Order.Nat

/-!
# Runs of a synchronous machine, and the events seen along them

A synchronous machine is a step function `σ → ι → σ`: one clock edge, taken on the inputs of the cycle
that ends with it.  This file holds what every proof about such a machine needs and no machine:

* `run` — the state in every cycle, for an infinite sequence of inputs;
* `IsRun` — a sequence of states that obeys the step function, wherever it starts;
* `IsRun.shift`, `IsRun.invariant`, `IsRun.map` — suffixes, inductive invariants and projections onto a
  second machine (a functional simulation);
* `IsRun.congr` — a run depends on its start and on the inputs before the cycle, and on nothing else;
* `frame_run` — what no edge of a stretch changes;
* `events` — the list of what a partial observation of the cycles yields up to a cycle;
* `latest` — the last data a log of writes holds for an address.
-/

namespace Sync

variable {σ ι τ κ α β : Type*}

/-- The state in cycle `n`: the start state after `n` clock edges, edge `k` taken on `inp k`. -/
def run (step : σ → ι → σ) (s : σ) (inp : ℕ → ι) : ℕ → σ
  | 0 => s
  | n + 1 => step (run step s inp n) (inp n)

@[simp] theorem run_zero (step : σ → ι → σ) (s : σ) (inp : ℕ → ι) : run step s inp 0 = s := rfl

/-- A sequence of states, each the step of the one before. -/
def IsRun (step : σ → ι → σ) (x : ℕ → σ) (inp : ℕ → ι) : Prop :=
  ∀ n, x (n + 1) = step (x n) (inp n)

theorem isRun_run (step : σ → ι → σ) (s : σ) (inp : ℕ → ι) : IsRun step (run step s inp) inp :=
  fun _ => rfl

namespace IsRun

variable {step : σ → ι → σ} {x : ℕ → σ} {inp : ℕ → ι}

/-- A suffix of a run is a run. -/
theorem shift (hx : IsRun step x inp) (a : ℕ) :
    IsRun step (fun k => x (a + k)) (fun k => inp (a + k)) :=
  fun n => hx (a + n)

/-- **Induction over a run.**  What holds at the start and is kept by every step whose input is
admissible holds in every cycle. -/
theorem invariant {P : σ → Prop} {Q : ι → Prop} (hx : IsRun step x inp)
    (hstep : ∀ s i, P s → Q i → P (step s i)) (h0 : P (x 0)) (hinp : ∀ n, Q (inp n)) (n : ℕ) :
    P (x n) := by
  induction n with
  | zero => exact h0
  | succ n ih =>
    rw [hx n]
    exact hstep _ _ ih (hinp n)

/-- **Simulation.**  If `f` commutes with the two step functions on admissible inputs, it carries runs
of the first machine to runs of the second. -/
theorem map {step' : τ → κ → τ} {Q : ι → Prop} (hx : IsRun step x inp) (f : σ → τ)
    (g : σ → ι → κ) (hf : ∀ s i, Q i → f (step s i) = step' (f s) (g s i))
    (hinp : ∀ n, Q (inp n)) :
    IsRun step' (fun n => f (x n)) (fun n => g (x n) (inp n)) := by
  intro n
  show f (x (n + 1)) = _
  rw [hx n]
  exact hf _ _ (hinp n)

/-- **Determinism.**  Two runs with the same start agree for as long as their inputs do. -/
theorem congr {y : ℕ → σ} {inp' : ℕ → ι} (hx : IsRun step x inp) (hy : IsRun step y inp')
    (h0 : x 0 = y 0) (n : ℕ) (hinp : ∀ d, d < n → inp d = inp' d) : x n = y n := by
  induction n with
  | zero => exact h0
  | succ n ih =>
    have hbefore : x n = y n := ih fun d hd => hinp d (Nat.lt_succ_of_lt hd)
    rw [hx n, hy n, hbefore, hinp n (Nat.lt_succ_self n)]

end IsRun

/-- **Frame.**  What no edge of a stretch changes is the same at both ends of the stretch. -/
theorem frame_run {f : ℕ → α} {m k : ℕ} (hk : m ≤ k)
    (h : ∀ j, m ≤ j → j < k → f (j + 1) = f j) : f k = f m := by
  induction k, hk using Nat.le_induction with
  | base => rfl
  | succ k hk ih =>
    rw [h k hk (Nat.lt_succ_self k)]
    exact ih fun j hj hlt => h j hj (Nat.lt_succ_of_lt hlt)

/-! ### Events -/

/-- What the observation `e` yields in the cycles before `n`, in order. -/
def events (e : ℕ → Option α) (n : ℕ) : List α := (List.range n).filterMap e

@[simp] theorem events_zero (e : ℕ → Option α) : events e 0 = [] := rfl

theorem events_succ (e : ℕ → Option α) (n : ℕ) :
    events e (n + 1) = events e n ++ (e n).toList := by
  simp only [events, List.range_succ, List.filterMap_append]
  cases h : e n <;> simp [h]

theorem events_succ_none {e : ℕ → Option α} {n : ℕ} (h : e n = none) :
    events e (n + 1) = events e n := by
  rw [events_succ, h, Option.toList_none, List.append_nil]

theorem events_succ_some {e : ℕ → Option α} {n : ℕ} {v : α} (h : e n = some v) :
    events e (n + 1) = events e n ++ [v] := by
  rw [events_succ, h, Option.toList_some]

theorem mem_events {e : ℕ → Option α} {n : ℕ} {v : α} :
    v ∈ events e n ↔ ∃ k, k < n ∧ e k = some v := by
  simp [events]

/-- **Delivery in order.**  If in every cycle the pending list and what the cycle accepts are what the
cycle delivers and the next pending list, then everything accepted is delivered or pending, in order. -/
theorem events_eq_append_pending {accept deliver : ℕ → Option α} (pending : ℕ → List α)
    (h0 : pending 0 = [])
    (hstep : ∀ n, pending n ++ (accept n).toList = (deliver n).toList ++ pending (n + 1)) (n : ℕ) :
    events accept n = events deliver n ++ pending n := by
  induction n with
  | zero => rw [h0, events_zero, events_zero, List.append_nil]
  | succ n ih =>
    calc events accept (n + 1)
        = events deliver n ++ (pending n ++ (accept n).toList) := by
          rw [events_succ, ih, List.append_assoc]
      _ = events deliver (n + 1) ++ pending (n + 1) := by
          rw [hstep, events_succ, List.append_assoc]

/-- **Delivery with losses.**  If what a cycle delivers and the next pending list are part of the pending
list and what the cycle accepts, in order, then so are all deliveries of a run. -/
theorem events_append_pending_sublist {accept deliver : ℕ → Option α} (pending : ℕ → List α)
    (h0 : pending 0 = [])
    (hstep : ∀ n, ((deliver n).toList ++ pending (n + 1)).Sublist (pending n ++ (accept n).toList))
    (n : ℕ) : (events deliver n ++ pending n).Sublist (events accept n) := by
  induction n with
  | zero =>
    rw [h0]
    exact List.Sublist.refl []
  | succ n ih =>
    have hnow : (events deliver n ++ ((deliver n).toList ++ pending (n + 1))).Sublist
        (events deliver n ++ (pending n ++ (accept n).toList)) := (hstep n).append_left _
    have hbefore : ((events deliver n ++ pending n) ++ (accept n).toList).Sublist
        (events accept n ++ (accept n).toList) := ih.append_right _
    rw [events_succ, events_succ, List.append_assoc]
    apply hnow.trans
    rw [← List.append_assoc]
    exact hbefore

/-! ### The latest write -/

/-- The data last written to `a` in a log of writes. -/
def latest [DecidableEq α] (log : List (α × β)) (a : α) : Option β :=
  (log.reverse.find? (fun w => w.1 = a)).map Prod.snd

@[simp] theorem latest_nil [DecidableEq α] (a : α) : latest ([] : List (α × β)) a = none := rfl

/-- One more write is the latest of its own address and of no other. -/
theorem latest_append [DecidableEq α] (log : List (α × β)) (a b : α) (d : β) :
    latest (log ++ [(a, d)]) b = if a = b then some d else latest log b := by
  simp only [latest, List.reverse_append, List.reverse_singleton, List.singleton_append,
    List.find?_cons]
  by_cases h : a = b <;> simp [h]

end Sync
