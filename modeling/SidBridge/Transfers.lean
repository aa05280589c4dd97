import SidBridge.Effects

/-!
# Transfers: taken, in progress, carried out

A transfer of the bus reaches the bridge in two parts, the address phase in one cycle and the data in a
later one.  The bridge carries it out in one cycle of its own: a register write where it takes the data, a
register read where it takes the address, a SID access where it selects the SID.

* `transferOf` — what an address phase and a data phase ask for;
* `taken`, `inProgress` — what an edge takes from the bus, and what is not yet carried out;
* `inProgress_of_taken`, `inProgress_of_hasPending`, `executed_cases` — the three lemmas the laws of the
  bus follow from;
* `lastTaken`, `executed_origin` — what is carried out was taken, and only once.

Nothing here asks the bus to behave: the inputs are arbitrary, resets included.
-/

namespace SidBridge

/-- The transfer with the address phase `i` and `HWDATA` as in `d`. -/
def transferOf (i d : Ports) : Transfer :=
  if i.haddr14 then
    if i.HWRITE then .sidWrite i.haddr62 d.hwdata70 else .sidRead i.haddr62
  else
    if i.HWRITE then .regWrite i.haddr32 d.HWDATA else .regRead i.haddr32

/-- An edge at which the bridge takes an address phase off the bus. -/
def taken (reg : RegType) (i : Ports) : Bool := i.HRESETN && reg.state = .stIdle && i.HSEL

/-- The states with a transfer taken and not yet carried out. -/
def StateType.hasPending : StateType → Bool
  | .stWriteReg | .stReadSidSt1 | .stWriteSidSt1 => true
  | _ => false

/-- The transfer in progress, with the data the bus shows now. -/
def inProgress (reg : RegType) (i : Ports) : List Transfer :=
  match reg.state with
  | .stWriteReg => (reg.regAddr.map fun addr => Transfer.regWrite addr i.HWDATA).toList
  | .stReadSidSt1 => [.sidRead reg.sidAddr]
  | .stWriteSidSt1 => [.sidWrite reg.sidAddr i.hwdata70]
  | _ => []

theorem taken_iff {reg : RegType} {i : Ports} : taken reg i = true ↔
    i.HRESETN = true ∧ reg.state = .stIdle ∧ i.HSEL = true := by
  simp [taken, and_assoc]

theorem inProgress_of_not_hasPending {reg : RegType} (i : Ports) (h : reg.state.hasPending = false) :
    inProgress reg i = [] := by
  cases hs : reg.state <;> simp_all [inProgress, StateType.hasPending]

theorem inProgress_length_le_one (reg : RegType) (i : Ports) : (inProgress reg i).length ≤ 1 := by
  cases hs : reg.state <;> cases ha : reg.regAddr <;> simp [inProgress, hs, ha]

/-- A reset leaves nothing in progress. -/
theorem hresetn_of_hasPending {reg : RegType} {i : Ports}
    (h : (nextReg reg i).state.hasPending = true) : i.HRESETN = true := by
  cases hreset : i.HRESETN with
  | true => rfl
  | false =>
    rw [nextReg_reset reg hreset] at h
    cases h

/-- Something is in progress after an edge that took it, or because it was before. -/
theorem taken_or_hasPending {reg : RegType} {i : Ports}
    (h : (nextReg reg i).state.hasPending = true) :
    taken reg i = true ∨ reg.state.hasPending = true := by
  have hrst := hresetn_of_hasPending h
  rw [state_nextReg hrst] at h
  cases hs : reg.state
  case stIdle =>
    left
    rw [taken_iff]
    refine ⟨hrst, hs, ?_⟩
    by_contra hsel
    simp [nextState, hs, registerWrite, sidRequest, hsel, StateType.hasPending] at h
  all_goals
    cases hclk : reg.sidClk <;> simp_all [nextState, StateType.hasPending]

/-- Nothing is carried out unless something is taken or in progress. -/
theorem executed_none {reg : RegType} {i : Ports} (htaken : taken reg i = false)
    (hpend : reg.state.hasPending = false) : executed reg i = none := by
  cases hreset : i.HRESETN with
  | false => simp [executed, hreset]
  | true =>
    have hsel : selectEdge reg = false := by
      cases hs : reg.state <;> simp_all [selectEdge, StateType.hasPending]
    have hread : registerRead reg i = false := by
      rw [← Bool.not_eq_true, registerRead_iff]
      intro hall
      obtain ⟨hidle, hselect, _⟩ := hall
      simp [taken, hreset, hidle, hselect] at htaken
    have hwrite : reg.state ≠ .stWriteReg := by
      intro hs
      rw [hs] at hpend
      cases hpend
    simp [executed_of_not_selectEdge hreset hsel, registerAccess, hwrite, hread]

/-- **What is taken is in progress**, or was a register read, which is carried out at once. -/
theorem inProgress_of_taken {reg : RegType} {i : Ports} (h : taken reg i = true) :
    (∀ d, inProgress (nextReg reg i) d = [transferOf i d]) ∧
        (nextReg reg i).state.hasPending = true ∧ executed reg i = none ∨
      executed reg i = some (transferOf i i) ∧ i.HWRITE = false ∧ (nextReg reg i).state = .stIdle := by
  obtain ⟨hrst, hs, hsel⟩ := taken_iff.mp h
  have hexec : executed reg i = registerAccess reg i :=
    executed_of_not_selectEdge hrst (by simp [selectEdge, hs])
  by_cases haddr : i.haddr14 = true
  · -- a SID access
    left
    have hread : registerRead reg i = false := by simp [registerRead, haddr]
    have hnone : executed reg i = none := by simp [hexec, registerAccess, hs, hread]
    rw [nextReg_eq reg hrst]
    cases hw : i.HWRITE <;>
      simp [inProgress, nextState, registerWrite, sidRequest, transferOf, StateType.hasPending, hs,
        hsel, haddr, hw, hnone]
  · rw [Bool.not_eq_true] at haddr
    cases hw : i.HWRITE with
    | true =>
      left
      have hread : registerRead reg i = false := by simp [registerRead, hw]
      have hnone : executed reg i = none := by simp [hexec, registerAccess, hs, hread]
      have hwrite : registerWrite reg i = true := registerWrite_iff.mpr ⟨hs, hsel, haddr, hw⟩
      rw [nextReg_eq reg hrst]
      simp [inProgress, nextState, transferOf, StateType.hasPending, hs, haddr, hw, hwrite, hnone]
    | false =>
      right
      have hread : registerRead reg i = true := registerRead_iff.mpr ⟨hs, hsel, haddr, hw⟩
      refine ⟨?_, rfl, ?_⟩
      · simp [hexec, registerAccess_of_registerRead hread, transferOf, haddr, hw]
      · rw [nextReg_eq reg hrst]
        simp [nextState, hs, registerWrite, sidRequest, haddr, hw]

/-- **What is in progress stays**, or is carried out. -/
theorem inProgress_of_hasPending {reg : RegType} {i : Ports} (hrst : i.HRESETN = true)
    (hsafe : BusSafe reg) (h : reg.state.hasPending = true) :
    executed reg i = none ∧ (nextReg reg i).state = reg.state ∧
        (∀ d, inProgress (nextReg reg i) d = inProgress reg d) ∨
      (executed reg i).toList = inProgress reg i ∧ (nextReg reg i).state.hasPending = false := by
  have hread : registerRead reg i = false := by
    cases hs : reg.state <;> simp_all [registerRead, StateType.hasPending]
  cases hs : reg.state <;> rw [hs] at h <;> try cases h
  case stWriteReg =>
    right
    rw [executed_of_not_selectEdge hrst (by simp [selectEdge, hs]), state_nextReg hrst]
    simp [inProgress, registerAccess, nextState, StateType.hasPending, hs]
  all_goals
    have hne : sidRequest reg i = false := by simp [sidRequest, hs]
    cases hclk : reg.sidClk with
    | true =>
      left
      rw [executed_of_not_selectEdge hrst (by simp [selectEdge, hclk]), nextReg_eq reg hrst]
      simp [inProgress, registerAccess, nextState, hs, hread, hne, hclk]
    | false =>
      right
      have hcs : reg.sidCsN = true := by
        rw [hsafe.csN, hs]
        rfl
      rw [executed_of_selectEdge hrst hcs (by simp [selectEdge, hs, hclk]), state_nextReg hrst]
      simp [inProgress, nextState, StateType.hasPending, StateType.isSidRead, hs, hclk]

/-- **What is carried out** was taken by the same edge or was in progress, and no longer is. -/
theorem executed_cases {reg : RegType} {i : Ports} {t : Transfer} (hsafe : BusSafe reg)
    (h : executed reg i = some t) :
    (taken reg i = true ∧ i.HWRITE = false ∧ t = transferOf i i ∨
      reg.state.hasPending = true ∧ inProgress reg i = [t]) ∧
        (nextReg reg i).state.hasPending = false := by
  by_cases htaken : taken reg i = true
  · rcases inProgress_of_taken htaken with ⟨-, -, hnone⟩ | ⟨hsome, hwrite, hidle⟩
    · rw [h] at hnone
      cases hnone
    · rw [h, Option.some.injEq] at hsome
      refine ⟨Or.inl ⟨htaken, hwrite, hsome⟩, ?_⟩
      rw [hidle]
      rfl
  · have hpend : reg.state.hasPending = true := by
      by_contra hno
      rw [executed_none (by simpa using htaken) (by simpa using hno)] at h
      cases h
    have hrst : i.HRESETN = true := by
      by_contra hreset
      simp [executed, hreset] at h
    rcases inProgress_of_hasPending hrst hsafe hpend with ⟨hnone, -, -⟩ | ⟨hlist, hnext⟩
    · rw [h] at hnone
      cases hnone
    · rw [h, Option.toList_some] at hlist
      exact ⟨Or.inr ⟨hpend, hlist.symm⟩, hnext⟩

/-! ### Where a transfer that is carried out comes from -/

/-- The last edge up to cycle `n` that took an address phase. -/
def lastTaken (inp : ℕ → Ports) : ℕ → ℕ
  | 0 => 0
  | n + 1 => if taken (run inp (n + 1)) (inp (n + 1)) then n + 1 else lastTaken inp n

/-- Cycle `n` lies in the data phase of the transfer taken in cycle `o`: the bridge has asked for more
time in every data cycle before. -/
def DataPhase (inp : ℕ → Ports) (o n : ℕ) : Prop :=
  o < n ∧ ∀ j, o < j → j < n → (run inp j).HREADYOUT = false

/-- `t` is the transfer taken in cycle `o`; a write has the data of cycle `n`, in its own data phase. -/
def Sourced (inp : ℕ → Ports) (o n : ℕ) (t : Transfer) : Prop :=
  t = transferOf (inp o) (inp n) ∧ (o = n ∧ (inp o).HWRITE = false ∨ DataPhase inp o n)

/-- The transfer in progress in cycle `n` was taken in cycle `o`. -/
structure Waits (inp : ℕ → Ports) (o n : ℕ) : Prop where
  taken : taken (run inp o) (inp o) = true
  lt : o < n
  pending : ∀ j, o < j → j ≤ n → (run inp j).state.hasPending = true
  transfer : ∀ d, inProgress (run inp n) d = [transferOf (inp o) d]

section Origin

variable {inp : ℕ → Ports}

theorem lastTaken_of_taken {n : ℕ} (h : taken (run inp n) (inp n) = true) : lastTaken inp n = n := by
  cases n with
  | zero => rfl
  | succ n => exact if_pos h

theorem lastTaken_le (n : ℕ) : lastTaken inp n ≤ n := by
  induction n with
  | zero => exact le_rfl
  | succ n ih =>
    rw [lastTaken]
    split
    · exact le_rfl
    · exact Nat.le_succ_of_le ih

/-- **The transfer in progress is the last one taken.** -/
theorem waits_lastTaken {n : ℕ} (h : (run inp n).state.hasPending = true) :
    Waits inp (lastTaken inp n) n := by
  induction n with
  | zero => cases h
  | succ n ih =>
    have hno : ¬taken (run inp (n + 1)) (inp (n + 1)) = true := by
      intro htaken
      rw [(taken_iff.mp htaken).2.1] at h
      cases h
    rw [lastTaken, if_neg hno]
    have h' : (nextReg (run inp n) (inp n)).state.hasPending = true := h
    by_cases htaken : taken (run inp n) (inp n) = true
    · rw [lastTaken_of_taken htaken]
      refine ⟨htaken, Nat.lt_succ_self n, fun j hj hle => ?_, ?_⟩
      · obtain rfl : j = n + 1 := by omega
        exact h
      · rcases inProgress_of_taken htaken with ⟨hlist, -, -⟩ | ⟨-, -, hidle⟩
        · exact hlist
        · rw [hidle] at h'
          cases h'
    · have hpend := (taken_or_hasPending h').resolve_left htaken
      obtain ⟨ho, hlt, hall, htransfer⟩ := ih hpend
      refine ⟨ho, Nat.lt_succ_of_lt hlt, fun j hj hle => ?_, fun d => ?_⟩
      · rcases Nat.eq_or_lt_of_le hle with rfl | hlt'
        · exact h
        · exact hall j hj (by omega)
      · rcases inProgress_of_hasPending (hresetn_of_hasPending h') (busSafe_run inp n) hpend with
          ⟨-, -, hstay⟩ | ⟨-, hgone⟩
        · exact (hstay d).trans (htransfer d)
        · rw [hgone] at h'
          cases h'

/-- While a transfer stays in progress the bridge is not ready. -/
theorem not_ready_of_hasPending {n : ℕ} (h : (run inp n).state.hasPending = true)
    (h' : (run inp (n + 1)).state.hasPending = true) : (run inp n).HREADYOUT = false := by
  have hrst : (inp n).HRESETN = true :=
    hresetn_of_hasPending (show (nextReg (run inp n) (inp n)).state.hasPending = true from h')
  have hstate : (run inp (n + 1)).state = nextState (run inp n) (inp n) := state_nextReg hrst
  rw [(busSafe_run inp n).hreadyout]
  cases hs : (run inp n).state <;> rw [hs] at h <;> try cases h
  case stWriteReg =>
    rw [hstate, nextState, hs] at h'
    cases h'
  all_goals rfl

theorem Waits.dataPhase {o n : ℕ} (h : Waits inp o n) : DataPhase inp o n :=
  ⟨h.lt, fun j hj hlt => not_ready_of_hasPending (h.pending j hj (Nat.le_of_lt hlt))
    (h.pending (j + 1) (by omega) hlt)⟩

/-- **What is carried out was taken**, with its data from its own data phase. -/
theorem executed_origin {n : ℕ} {t : Transfer} (h : executed (run inp n) (inp n) = some t) :
    taken (run inp (lastTaken inp n)) (inp (lastTaken inp n)) = true ∧
      Sourced inp (lastTaken inp n) n t := by
  rcases (executed_cases (busSafe_run inp n) h).1 with ⟨htaken, hwrite, ht⟩ | ⟨hpend, hlist⟩
  · rw [lastTaken_of_taken htaken]
    exact ⟨htaken, ht, Or.inl ⟨rfl, hwrite⟩⟩
  · have hwaits := waits_lastTaken hpend
    have ht := hwaits.transfer (inp n)
    rw [hlist, List.singleton_inj] at ht
    exact ⟨hwaits.taken, ht, Or.inr hwaits.dataPhase⟩

/-- **Nothing is carried out twice**, and nothing out of order. -/
theorem lastTaken_lt {m n : ℕ} (hlt : m < n) (hm : executed (run inp m) (inp m) ≠ none)
    (hn : executed (run inp n) (inp n) ≠ none) : lastTaken inp m < lastTaken inp n := by
  obtain ⟨t, ht⟩ := Option.ne_none_iff_exists'.mp hm
  obtain ⟨t', ht'⟩ := Option.ne_none_iff_exists'.mp hn
  have hgone : (run inp (m + 1)).state.hasPending = false :=
    (executed_cases (busSafe_run inp m) ht).2
  refine Nat.lt_of_le_of_lt (lastTaken_le m) ?_
  rcases (executed_cases (busSafe_run inp n) ht').1 with ⟨htaken, -, -⟩ | ⟨hpend, -⟩
  · rw [lastTaken_of_taken htaken]
    exact hlt
  · by_contra hle
    rw [(waits_lastTaken hpend).pending (m + 1) (by omega) hlt] at hgone
    cases hgone

end Origin

end SidBridge
