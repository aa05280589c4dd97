import Mathlib.Data.Finset.Max
import Mathlib.Order.Bounds.Basic
import SidBridge.Sync.Run

/-!
# A divided clock, and its half-periods when the limit moves

A *divided clock* is a level that toggles when a counter reaches a limit.  The limit may be reloaded in any
cycle, also below the running count, so `count ≤ limit` is no invariant.  What survives is a relation
between the count and the *history* of the limit: the count is the age of the level, and the level lasts
until its age first reaches the limit of that very cycle.

* `Divider`, `Divider.tick` — the divided clock;
* `StartsHalf`, `HalfPeriod` — the half-periods of a level, with no machine behind it;
* `HalfLength` — the length law, on the limits alone: the least `l ≥ 1` whose last cycle meets its limit;
* `HalfLength.eq_of_steady`, `HalfLength.between` — what the law says of a steady limit, and of any;
* `count_up` — as long as the age stays below the limits, the clock counts;
* `lastStart_run`, `count_le_run` — the count is the age of the level, and never passes a bound on the
  limits;
* `halfPeriod_iff`, `exists_halfPeriod` — **the half-periods of a divided clock are those of the law**,
  and every one of them ends.
-/

namespace Sync

/-! ### The divided clock -/

/-- A level and the count since it last toggled. -/
@[ext] structure Divider where
  level : Bool
  count : ℕ
  deriving DecidableEq, Repr

namespace Divider

/-- One edge: count up below the limit, else toggle and start over. -/
def tick (limit : ℕ) (d : Divider) : Divider :=
  if d.count < limit then ⟨d.level, d.count + 1⟩ else ⟨!d.level, 0⟩

theorem tick_of_lt {limit c : ℕ} (b : Bool) (h : c < limit) :
    tick limit ⟨b, c⟩ = ⟨b, c + 1⟩ := if_pos h

theorem tick_of_le {limit c : ℕ} (b : Bool) (h : limit ≤ c) :
    tick limit ⟨b, c⟩ = ⟨!b, 0⟩ := if_neg (Nat.not_lt.mpr h)

theorem tick_level_eq_iff {limit : ℕ} {d : Divider} :
    (d.tick limit).level = d.level ↔ d.count < limit := by
  unfold tick
  split <;> simp_all

theorem tick_count (limit : ℕ) (d : Divider) :
    (d.tick limit).count = if d.count < limit then d.count + 1 else 0 := by
  unfold tick
  split <;> rfl

theorem tick_count_le (limit : ℕ) (d : Divider) : (d.tick limit).count ≤ limit := by
  rw [tick_count]
  split
  · assumption
  · exact Nat.zero_le limit

end Divider

/-! ### Half-periods of a level -/

section Level

variable {level : ℕ → Bool}

/-- A half-period starts in cycle 0 and in every cycle that shows another level than the one before. -/
def StartsHalf (level : ℕ → Bool) (k : ℕ) : Prop := k = 0 ∨ level k ≠ level (k - 1)

theorem startsHalf_zero (level : ℕ → Bool) : StartsHalf level 0 := Or.inl rfl

theorem startsHalf_succ {n : ℕ} : StartsHalf level (n + 1) ↔ level (n + 1) ≠ level n := by
  simp [StartsHalf]

/-- The level of cycle `k` starts there and lasts for exactly `l` cycles. -/
structure HalfPeriod (level : ℕ → Bool) (k l : ℕ) : Prop where
  starts : StartsHalf level k
  pos : 1 ≤ l
  stays : ∀ j, j < l → level (k + j) = level k
  ends : level (k + l) ≠ level k

end Level

/-! ### The length law -/

/-- The least `l ≥ 1` such that `l - 1` reaches the limit in the last of the `l` cycles from `k` on. -/
def HalfLength (limit : ℕ → ℕ) (k l : ℕ) : Prop :=
  IsLeast {m | 1 ≤ m ∧ limit (k + m - 1) ≤ m - 1} l

section Law

variable {limit : ℕ → ℕ} {k l : ℕ}

/-- The law in terms of the age: the last cycle is the first whose age reaches its limit. -/
theorem halfLength_succ_iff {j : ℕ} : HalfLength limit k (j + 1) ↔
    limit (k + j) ≤ j ∧ ∀ i, i < j → i < limit (k + i) := by
  constructor
  · intro h
    obtain ⟨hmem, hleast⟩ := h
    refine ⟨hmem.2, fun i hi => ?_⟩
    by_contra hge
    have := hleast (a := i + 1) ⟨Nat.succ_pos i, Nat.not_lt.mp hge⟩
    omega
  · intro h
    obtain ⟨hlast, hbefore⟩ := h
    refine ⟨⟨Nat.succ_pos j, hlast⟩, ?_⟩
    rintro m ⟨hpos, hm⟩
    obtain ⟨i, rfl⟩ := Nat.exists_eq_succ_of_ne_zero (Nat.ne_of_gt hpos)
    by_contra hlt
    have := hbefore i (by omega)
    rw [show k + i.succ - 1 = k + i by omega, show i.succ - 1 = i by omega] at hm
    omega

/-- Under a bounded limit the law has a solution. -/
theorem exists_halfLength {bound : ℕ} (hbound : ∀ n, limit n ≤ bound) (k : ℕ) :
    ∃ j, j ≤ bound ∧ HalfLength limit k (j + 1) := by
  have hex : ∃ j, limit (k + j) ≤ j := ⟨bound, hbound _⟩
  refine ⟨Nat.find hex, Nat.find_min' hex (hbound _), halfLength_succ_iff.mpr ⟨Nat.find_spec hex, ?_⟩⟩
  intro i hi
  exact Nat.not_le.mp (Nat.find_min hex hi)

theorem HalfLength.exists_age (h : HalfLength limit k l) :
    ∃ j, l = j + 1 ∧ limit (k + j) ≤ j ∧ ∀ i, i < j → i < limit (k + i) := by
  obtain ⟨j, rfl⟩ := Nat.exists_eq_succ_of_ne_zero (Nat.ne_of_gt h.1.1)
  exact ⟨j, rfl, halfLength_succ_iff.mp h⟩

/-- Some limit of the half-period is below its length: the last one. -/
theorem HalfLength.exists_limit_lt (h : HalfLength limit k l) :
    ∃ i, i < l ∧ limit (k + i) + 1 ≤ l := by
  obtain ⟨j, rfl, hlast, -⟩ := h.exists_age
  exact ⟨j, Nat.lt_succ_self j, Nat.succ_le_succ hlast⟩

/-- Some limit of the half-period nearly reaches its length: the last but one, if there is one. -/
theorem HalfLength.exists_le_limit (h : HalfLength limit k l) :
    ∃ i, i < l ∧ l ≤ limit (k + i) + 1 := by
  obtain ⟨j, rfl, -, hbefore⟩ := h.exists_age
  cases j with
  | zero => exact ⟨0, Nat.lt_succ_self 0, Nat.succ_le_succ (Nat.zero_le _)⟩
  | succ i => exact ⟨i, by omega, Nat.succ_le_succ (hbefore i (Nat.lt_succ_self i))⟩

/-- A half-period over which the limit stays `F` has `F + 1` cycles. -/
theorem HalfLength.eq_of_steady {F : ℕ} (h : HalfLength limit k l)
    (hF : ∀ j, j < l → limit (k + j) = F) : l = F + 1 := by
  obtain ⟨i, hi, hlow⟩ := h.exists_limit_lt
  obtain ⟨j, hj, hhigh⟩ := h.exists_le_limit
  rw [hF i hi] at hlow
  rw [hF j hj] at hhigh
  exact Nat.le_antisymm hhigh hlow

/-- **No shorter and no longer.**  The length lies between the least and the greatest limit of the
half-period, plus one. -/
theorem HalfLength.between (h : HalfLength limit k l) :
    ∃ lo hi, IsLeast ((fun j => limit (k + j)) '' Set.Iio l) lo ∧
      IsGreatest ((fun j => limit (k + j)) '' Set.Iio l) hi ∧ lo + 1 ≤ l ∧ l ≤ hi + 1 := by
  have hne : (Finset.range l).Nonempty := ⟨0, Finset.mem_range.mpr h.1.1⟩
  obtain ⟨a, ha, hmin⟩ := Finset.exists_min_image _ (fun i => limit (k + i)) hne
  obtain ⟨b, hb, hmax⟩ := Finset.exists_max_image _ (fun i => limit (k + i)) hne
  simp only [Finset.mem_range] at ha hmin hb hmax
  refine ⟨limit (k + a), limit (k + b), ⟨⟨a, ha, rfl⟩, ?_⟩, ⟨⟨b, hb, rfl⟩, ?_⟩, ?_, ?_⟩
  · rintro _ ⟨i, hi, rfl⟩
    exact hmin i hi
  · rintro _ ⟨i, hi, rfl⟩
    exact hmax i hi
  · obtain ⟨i, hi, hlow⟩ := h.exists_limit_lt
    exact (Nat.succ_le_succ (hmin i hi)).trans hlow
  · obtain ⟨i, hi, hhigh⟩ := h.exists_le_limit
    exact hhigh.trans (Nat.succ_le_succ (hmax i hi))

end Law

/-! ### Runs of a divided clock -/

section Run

variable {x : ℕ → Divider} {limit : ℕ → ℕ}

variable (hx : IsRun (fun d F => Divider.tick F d) x limit)

include hx

/-- As long as the age stays below the limits, the level stays and the count goes up. -/
theorem count_up {n c m : ℕ} {b : Bool} (hn : x n = ⟨b, c⟩) (h : ∀ j, j < m → c + j < limit (n + j)) :
    ∀ j, j ≤ m → x (n + j) = ⟨b, c + j⟩ := by
  intro j
  induction j with
  | zero => exact fun _ => hn
  | succ j ih =>
    intro hj
    rw [← Nat.add_assoc, hx (n + j), ih (by omega)]
    exact Divider.tick_of_lt b (h j hj)

theorem level_succ_eq_iff (n : ℕ) :
    (x (n + 1)).level = (x n).level ↔ (x n).count < limit n := by
  rw [hx n]
  exact Divider.tick_level_eq_iff

theorem count_succ_of_level_eq {n : ℕ} (h : (x (n + 1)).level = (x n).level) :
    (x (n + 1)).count = (x n).count + 1 := by
  rw [hx n]
  exact (Divider.tick_count _ _).trans (if_pos ((level_succ_eq_iff hx n).mp h))

theorem count_succ_of_level_ne {n : ℕ} (h : (x (n + 1)).level ≠ (x n).level) :
    (x (n + 1)).count = 0 := by
  rw [hx n]
  exact (Divider.tick_count _ _).trans (if_neg (mt (level_succ_eq_iff hx n).mpr h))

/-- **The count is the age of the level**: the cycles since it last toggled, or since the start. -/
theorem lastStart_run (h0 : (x 0).count = 0) (n : ℕ) :
    ∃ s, IsGreatest {k | k ≤ n ∧ StartsHalf (fun k => (x k).level) k} s ∧ (x n).count = n - s := by
  induction n with
  | zero => exact ⟨0, ⟨⟨le_rfl, startsHalf_zero _⟩, fun k hk => hk.1⟩, h0⟩
  | succ n ih =>
    by_cases hlevel : (x (n + 1)).level = (x n).level
    · obtain ⟨s, hs, hcount⟩ := ih
      have hle : s ≤ n := hs.1.1
      refine ⟨s, ⟨⟨Nat.le_succ_of_le hle, hs.1.2⟩, ?_⟩, ?_⟩
      · rintro k ⟨hk, hstart⟩
        rcases Nat.eq_or_lt_of_le hk with rfl | hlt
        · exact absurd hlevel (startsHalf_succ.mp hstart)
        · exact hs.2 ⟨Nat.le_of_lt_succ hlt, hstart⟩
      · rw [count_succ_of_level_eq hx hlevel, hcount]
        omega
    · refine ⟨n + 1, ⟨⟨le_rfl, startsHalf_succ.mpr hlevel⟩, fun k hk => hk.1⟩, ?_⟩
      rw [count_succ_of_level_ne hx hlevel, Nat.sub_self]

/-- No reload makes the count run away: it never passes what bounds all the limits. -/
theorem count_le_run {bound : ℕ} (h0 : (x 0).count = 0) (hbound : ∀ n, limit n ≤ bound) (n : ℕ) :
    (x n).count ≤ bound := by
  cases n with
  | zero => exact h0.trans_le (Nat.zero_le bound)
  | succ n =>
    rw [hx n]
    exact (Divider.tick_count_le _ _).trans (hbound n)

theorem count_of_startsHalf (h0 : (x 0).count = 0) {k : ℕ}
    (hk : StartsHalf (fun k => (x k).level) k) : (x k).count = 0 := by
  cases k with
  | zero => exact h0
  | succ k => exact count_succ_of_level_ne hx (startsHalf_succ.mp hk)

/-- From the start of a half-period the count is the age for as long as the level stays. -/
theorem count_of_stays {k m : ℕ} (hk : (x k).count = 0)
    (h : ∀ j, j ≤ m → (x (k + j)).level = (x k).level) : ∀ j, j ≤ m → (x (k + j)).count = j := by
  intro j
  induction j with
  | zero => exact fun _ => hk
  | succ j ih =>
    intro hj
    have hlevel : (x (k + j + 1)).level = (x (k + j)).level :=
      (h (j + 1) hj).trans (h j (by omega)).symm
    rw [← Nat.add_assoc, count_succ_of_level_eq hx hlevel, ih (by omega)]

/-- The level stays for as long as the age is below the limit of its cycle. -/
theorem stays_iff {k : ℕ} (hk : (x k).count = 0) (m : ℕ) :
    (∀ j, j ≤ m → (x (k + j)).level = (x k).level) ↔ ∀ j, j < m → j < limit (k + j) := by
  constructor
  · intro h j hj
    have hcount := count_of_stays hx hk h j (by omega)
    have hlevel := (h (j + 1) (by omega)).trans (h j (by omega)).symm
    have hlt := (level_succ_eq_iff hx (k + j)).mp hlevel
    rwa [hcount] at hlt
  · intro h j hj
    have hstart : x k = ⟨(x k).level, 0⟩ := Divider.ext rfl hk
    rw [count_up hx hstart (fun i hi => (Nat.zero_add i).symm ▸ h i hi) j hj]

/-- **The half-periods of a divided clock are those of the length law**, whatever the limit does. -/
theorem halfPeriod_iff (h0 : (x 0).count = 0) {k : ℕ}
    (hk : StartsHalf (fun k => (x k).level) k) (l : ℕ) :
    HalfPeriod (fun k => (x k).level) k l ↔ HalfLength limit k l := by
  have hcount := count_of_startsHalf hx h0 hk
  have hlast : ∀ j, (∀ i, i ≤ j → (x (k + i)).level = (x k).level) →
      ((x (k + (j + 1))).level ≠ (x k).level ↔ limit (k + j) ≤ j) := by
    intro j h
    rw [← h j le_rfl, ← Nat.add_assoc, Ne, level_succ_eq_iff hx,
      count_of_stays hx hcount h j le_rfl, Nat.not_lt]
  constructor
  · intro h
    obtain ⟨j, rfl⟩ := Nat.exists_eq_succ_of_ne_zero (Nat.ne_of_gt h.pos)
    have hstays : ∀ i, i ≤ j → (x (k + i)).level = (x k).level :=
      fun i hi => h.stays i (Nat.lt_succ_of_le hi)
    exact halfLength_succ_iff.mpr ⟨(hlast j hstays).mp h.ends, (stays_iff hx hcount j).mp hstays⟩
  · intro h
    obtain ⟨j, rfl, hlimit, hbefore⟩ := h.exists_age
    have hstays := (stays_iff hx hcount j).mpr hbefore
    exact ⟨hk, Nat.succ_pos j, fun i hi => hstays i (Nat.le_of_lt_succ hi),
      (hlast j hstays).mpr hlimit⟩

/-- Every half-period ends, within one cycle more than what bounds all the limits. -/
theorem exists_halfPeriod {bound : ℕ} (h0 : (x 0).count = 0) (hbound : ∀ n, limit n ≤ bound) {k : ℕ}
    (hk : StartsHalf (fun k => (x k).level) k) :
    ∃ l, l ≤ bound + 1 ∧ HalfPeriod (fun k => (x k).level) k l := by
  obtain ⟨j, hj, hlength⟩ := exists_halfLength hbound k
  exact ⟨j + 1, Nat.succ_le_succ hj, (halfPeriod_iff hx h0 hk (j + 1)).mpr hlength⟩

end Run

end Sync
