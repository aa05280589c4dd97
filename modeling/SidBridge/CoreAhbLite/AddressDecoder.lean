import Mathlib.Data.Fin.Basic
import Mathlib.Tactic.Common

/-!
# The address decoder of CoreAHBLite

A master stage hands the address of its transfer to `COREAHBLITE_ADDRDEC`, which raises one of seventeen
select lines, or the line for a reserved address, and moves the address when slots 0 and 1 are swapped.

* `Generics` — the generics of the memory map;
* `slotCase`, `addressDecoder` — the two processes and the rest of the architecture;
* `selectSlot`, `hotSlot` — a vector with one bit set, and how the core reads one;
* `decodedSlot`, `addressDecoder_eq` — the map the decoder implements: at most one slot an address;
* `decodedSlot_absoluteaddr_iff` — the moved address lies in the slot it is sent to in one memory map only.
-/

namespace SidBridge.CoreAhbLite

/-- Sixteen slots and, as number 16, the huge or combined one. -/
abbrev SlotId := Fin 17

/-- The generics that fix the memory map, in their ranges. -/
structure Generics where
  MEMSPACE : Fin 7
  HADDR_SHG_CFG : Fin 2
  SC : BitVec 16
  deriving DecidableEq, Repr

/-- `calc_msb_addr`. -/
def calcMsbAddr (x : ℕ) : ℕ :=
  if x = 0 then 31
  else if x = 1 then 31
  else if x = 2 then 27
  else if x = 3 then 23
  else if x = 4 then 19
  else if x = 5 then 15
  else if x = 6 then 11
  else 31

/-- `MSB_ADDR`. -/
def Generics.MSB_ADDR (g : Generics) : ℕ := calcMsbAddr g.MEMSPACE

/-- The outputs of the decoder. -/
structure AddrDecOut where
  ADDRDEC : SlotId → Bool
  ABSOLUTEADDR : BitVec 32
  RESERVEDDEC : Bool

/-- `ADDR(lo + 3 downto lo)`. -/
def nibble (ADDR : BitVec 32) (lo : ℕ) : Fin 16 := (ADDR.extractLsb' lo 4).toFin

/-- An assignment to one bit of an address. -/
def assignBit (v : BitVec 32) (k : ℕ) (b : Bool) : BitVec 32 :=
  if b then v ||| BitVec.twoPow 32 k else v &&& ~~~BitVec.twoPow 32 k

/-- The constants `SLAVE_0` to `SLAVE_15`. -/
def slaveOnly (k : Fin 16) : Fin 16 → Bool := fun j => j = k

/-- The constant `NONE`. -/
def slaveNone : Fin 16 → Bool := fun _ => false

/-- The `case slotdec` statement of both processes: `sdec_raw` and `absaddr`.  They differ in the bit
that the swap of slots 0 and 1 moves. -/
def slotCase (bit : ℕ) (slotdec : Fin 16) (REMAP : Bool) (ADDR : BitVec 32) :
    (Fin 16 → Bool) × BitVec 32 :=
  if slotdec = 0 then
    if REMAP = false then (slaveOnly 0, ADDR) else (slaveOnly 1, assignBit ADDR bit true)
  else if slotdec = 1 then
    if REMAP = false then (slaveOnly 1, ADDR) else (slaveOnly 0, assignBit ADDR bit false)
  else
    (slaveOnly slotdec, ADDR)

/-- `s16dec & sdec`. -/
def joinSlots (s16dec : Bool) (sdec : Fin 16 → Bool) : SlotId → Bool :=
  fun s => if h : s.val < 16 then sdec ⟨s, h⟩ else s16dec

/-- The architecture of `COREAHBLITE_ADDRDEC`. -/
def addressDecoder (g : Generics) (ADDR : BitVec 32) (REMAP : Bool) : AddrDecOut :=
  if g.MEMSPACE = 0 then
    let m0_hugeslotdec := ADDR.getLsbD 31
    let m0_otherslotsdec := decide (ADDR.extractLsb' 20 11 = 0#11)
    let v :=
      if m0_hugeslotdec then (slaveNone, assignBit ADDR 31 (g.HADDR_SHG_CFG ≠ 0))
      else if m0_otherslotsdec then slotCase 16 (nibble ADDR 16) REMAP ADDR
      else (slaveNone, ADDR)
    { ADDRDEC := joinSlots m0_hugeslotdec v.1
      ABSOLUTEADDR := v.2
      RESERVEDDEC := !m0_hugeslotdec && !m0_otherslotsdec }
  else
    let v := slotCase 24 (nibble ADDR (g.MSB_ADDR - 3)) REMAP ADDR
    { ADDRDEC := joinSlots (decide (∃ k : Fin 16, v.1 k = true ∧ g.SC.getLsbD k = true))
        fun k => v.1 k && !g.SC.getLsbD k
      ABSOLUTEADDR := v.2
      RESERVEDDEC := false }

/-! ### Vectors with one bit set -/

/-- The select vector of a slot, or of none. -/
def selectSlot (d : Option SlotId) : SlotId → Bool := fun s => d = some s

/-- How the core reads a select vector: the slot whose bit is the only one set. -/
def hotSlot (v : SlotId → Bool) : Option SlotId :=
  (List.finRange 17).find? fun s => decide (∀ t, v t = decide (t = s))

@[simp] theorem selectSlot_none (s : SlotId) : selectSlot none s = false := rfl

theorem selectSlot_eq_true_iff {d : Option SlotId} {s : SlotId} :
    selectSlot d s = true ↔ d = some s := by
  simp [selectSlot]

@[simp] theorem selectSlot_some_self (s : SlotId) : selectSlot (some s) s = true :=
  selectSlot_eq_true_iff.mpr rfl

/-- Reading a select vector gives its slot back. -/
@[simp] theorem hotSlot_selectSlot (d : Option SlotId) : hotSlot (selectSlot d) = d := by
  cases d with
  | none => decide
  | some s =>
    revert s
    decide

/-! ### The memory map -/

/-- Slots 0 and 1 change places under `REMAP`. -/
def swapSlots (REMAP : Bool) (k : Fin 16) : Fin 16 :=
  if REMAP then if k = 0 then 1 else if k = 1 then 0 else k else k

/-- The slot an address belongs to; `none` is a reserved address. -/
def decodedSlot (g : Generics) (ADDR : BitVec 32) (REMAP : Bool) : Option SlotId :=
  if g.MEMSPACE = 0 then
    if ADDR.getLsbD 31 then some 16
    else if ADDR.extractLsb' 20 11 = 0#11 then some (swapSlots REMAP (nibble ADDR 16)).castSucc
    else none
  else
    let k := swapSlots REMAP (nibble ADDR (g.MSB_ADDR - 3))
    some (if g.SC.getLsbD k then 16 else k.castSucc)

theorem slotCase_fst (bit : ℕ) (k : Fin 16) (REMAP : Bool) (ADDR : BitVec 32) :
    (slotCase bit k REMAP ADDR).1 = slaveOnly (swapSlots REMAP k) := by
  unfold slotCase swapSlots
  by_cases h0 : k = 0
  · cases REMAP <;> simp [h0]
  by_cases h1 : k = 1
  · cases REMAP <;> simp [h1]
  · cases REMAP <;> simp [h0, h1]

theorem joinSlots_slaveOnly (k : Fin 16) :
    joinSlots false (slaveOnly k) = selectSlot (some k.castSucc) := by
  funext s
  by_cases h : s.val < 16
  · simp [joinSlots, slaveOnly, selectSlot, h, Fin.ext_iff, eq_comm]
  · have := k.isLt
    simp [joinSlots, selectSlot, h, Fin.ext_iff]
    omega

theorem joinSlots_huge : joinSlots true slaveNone = selectSlot (some 16) := by
  funext s
  revert s
  decide

theorem joinSlots_none : joinSlots false slaveNone = selectSlot none := by
  funext s
  revert s
  decide

/-- A combined slot raises line 16 in place of its own. -/
theorem joinSlots_combined (SC : BitVec 16) (k : Fin 16) :
    joinSlots (decide (∃ j : Fin 16, slaveOnly k j = true ∧ SC.getLsbD j = true))
        (fun j => slaveOnly k j && !SC.getLsbD j) =
      selectSlot (some (if SC.getLsbD k then 16 else k.castSucc)) := by
  have hany : decide (∃ j : Fin 16, slaveOnly k j = true ∧ SC.getLsbD j = true) = SC.getLsbD k := by
    simp [slaveOnly]
  rw [hany]
  cases hsc : SC.getLsbD k with
  | false =>
    rw [if_neg (by simp), ← joinSlots_slaveOnly]
    congr 1
    funext j
    by_cases hj : j = k
    · rw [hj, hsc, Bool.not_false, Bool.and_true]
    · simp [slaveOnly, hj]
  | true =>
    rw [if_pos rfl, ← joinSlots_huge]
    congr 1
    funext j
    by_cases hj : j = k
    · simp [slaveOnly, slaveNone, hj, hsc]
    · simp [slaveOnly, slaveNone, hj]

/-- **The decoder implements the memory map**: it raises the line of the slot of the address and no
other, or the reserved line alone. -/
theorem addressDecoder_eq (g : Generics) (ADDR : BitVec 32) (REMAP : Bool) :
    (addressDecoder g ADDR REMAP).ADDRDEC = selectSlot (decodedSlot g ADDR REMAP) ∧
      (addressDecoder g ADDR REMAP).RESERVEDDEC = (decodedSlot g ADDR REMAP).isNone := by
  unfold addressDecoder decodedSlot
  by_cases hmem : g.MEMSPACE = 0
  · simp only [hmem, if_true]
    cases hhuge : ADDR.getLsbD 31 with
    | true => simp [joinSlots_huge]
    | false =>
      by_cases hother : ADDR.extractLsb' 20 11 = 0#11
      · simp [hother, slotCase_fst, joinSlots_slaveOnly]
      · simp [hother, joinSlots_none]
  · simp only [hmem, if_false, slotCase_fst]
    exact ⟨joinSlots_combined _ _, rfl⟩

/-! ### The moved address -/

theorem getLsbD_assignBit (v : BitVec 32) {k : ℕ} (hk : k < 32) (b : Bool) (j : ℕ) :
    (assignBit v k b).getLsbD j = if j = k then b else v.getLsbD j := by
  unfold assignBit
  by_cases hj : j = k
  · subst hj
    cases b <;> simp [hk]
  · have hjk : ¬k = j := fun h => hj h.symm
    cases b with
    | true => simp [hj, hjk]
    | false =>
      by_cases h32 : j < 32
      · simp [hj, h32]
      · simp [hj, BitVec.getLsbD_of_ge _ _ (Nat.le_of_not_lt h32)]

/-- Two addresses with the same four bits lie in the same slot. -/
theorem nibble_congr {v w : BitVec 32} {lo : ℕ}
    (h : ∀ j, j < 4 → v.getLsbD (lo + j) = w.getLsbD (lo + j)) : nibble v lo = nibble w lo := by
  unfold nibble
  congr 1
  apply BitVec.eq_of_getLsbD_eq
  intro j hj
  simp [hj, h j hj]

/-- A bit outside the four leaves the slot as it is. -/
theorem nibble_assignBit_of_outside (v : BitVec 32) {lo k : ℕ} (b : Bool) (hk : k < 32)
    (hout : k < lo ∨ lo + 4 ≤ k) : nibble (assignBit v k b) lo = nibble v lo := by
  refine nibble_congr fun j hj => ?_
  rw [getLsbD_assignBit v hk, if_neg]
  omega

theorem nibble_testBit (v : BitVec 32) (lo : ℕ) {j : ℕ} (hj : j < 4) :
    (nibble v lo).val.testBit j = v.getLsbD (lo + j) := by
  show (v.extractLsb' lo 4).toNat.testBit j = _
  rw [BitVec.testBit_toNat, BitVec.getLsbD_extractLsb']
  simp [hj]

/-- The lowest of the four bits moves an address between slots 0 and 1. -/
theorem nibble_assignBit_low {v : BitVec 32} {lo : ℕ} (hlo : lo < 32) {k l : Fin 16} {b : Bool}
    (hk : nibble v lo = k) (hlow : l.val.testBit 0 = b)
    (hhigh : ∀ j, j < 4 → 0 < j → l.val.testBit j = k.val.testBit j) :
    nibble (assignBit v lo b) lo = l := by
  apply Fin.ext
  apply Nat.eq_of_testBit_eq
  intro j
  by_cases hj : j < 4
  · rw [nibble_testBit _ _ hj, getLsbD_assignBit v hlo]
    rcases Nat.eq_zero_or_pos j with rfl | hpos
    · simp [hlow]
    · rw [if_neg (by omega), hhigh j hj hpos, ← hk, nibble_testBit _ _ hj]
  · have h16 : ∀ m : Fin 16, m.val.testBit j = false := by
      intro m
      apply Nat.testBit_lt_two_pow
      calc m.val < 2 ^ 4 := m.isLt
        _ ≤ 2 ^ j := Nat.pow_le_pow_right (by omega) (by omega)
    rw [h16, h16]

theorem absoluteaddr_eq {g : Generics} (hmem : g.MEMSPACE ≠ 0) (ADDR : BitVec 32) :
    (addressDecoder g ADDR true).ABSOLUTEADDR =
      if nibble ADDR (g.MSB_ADDR - 3) = 0 then assignBit ADDR 24 true
      else if nibble ADDR (g.MSB_ADDR - 3) = 1 then assignBit ADDR 24 false
      else ADDR := by
  simp only [addressDecoder, hmem, if_false, slotCase]
  split
  · rfl
  · split <;> rfl

/-- Bit 24 is the lowest slot bit in one memory map, and no slot bit in the others. -/
theorem msb_addr_cases {g : Generics} (hmem : g.MEMSPACE ≠ 0) :
    (g.MEMSPACE = 2 ∧ g.MSB_ADDR - 3 = 24) ∨
      (g.MEMSPACE ≠ 2 ∧ (24 < g.MSB_ADDR - 3 ∨ g.MSB_ADDR - 3 + 4 ≤ 24)) := by
  have hall : ∀ m : Fin 7, m ≠ 0 → (m = 2 ∧ calcMsbAddr m - 3 = 24) ∨
      (m ≠ 2 ∧ (24 < calcMsbAddr m - 3 ∨ calcMsbAddr m - 3 + 4 ≤ 24)) := by decide
  exact hall g.MEMSPACE hmem

/-- **The swap of slots 0 and 1.**  The process moves bit 24, whatever the memory map.  The address it
hands on lies in the slot it raises, for every address, exactly when bit 24 is the lowest slot bit, or
slots 0 and 1 are one and the same combined slot. -/
theorem decodedSlot_absoluteaddr_iff (g : Generics) (hmem : g.MEMSPACE ≠ 0) :
    (∀ ADDR, decodedSlot g (addressDecoder g ADDR true).ABSOLUTEADDR false = decodedSlot g ADDR true) ↔
      g.MEMSPACE = 2 ∨ (g.SC.getLsbD 0 = true ∧ g.SC.getLsbD 1 = true) := by
  simp only [decodedSlot, hmem, if_false, absoluteaddr_eq hmem, swapSlots, if_true]
  rcases msb_addr_cases hmem with ⟨h2, hlo⟩ | ⟨h2, hout⟩
  · rw [hlo]
    refine iff_of_true (fun ADDR => ?_) (Or.inl h2)
    by_cases h0 : nibble ADDR 24 = 0
    · have hmoved : nibble (assignBit ADDR 24 true) 24 = 1 :=
        nibble_assignBit_low (by omega) h0 rfl (by decide)
      simp [h0, hmoved]
    by_cases h1 : nibble ADDR 24 = 1
    · have hmoved : nibble (assignBit ADDR 24 false) 24 = 0 :=
        nibble_assignBit_low (by omega) h1 rfl (by decide)
      simp [h1, hmoved]
    · simp [h0, h1]
  · simp only [h2, false_or]
    constructor
    · intro hall
      have hzero := hall 0
      have hslot : nibble 0 (g.MSB_ADDR - 3) = 0 := by simp [nibble]
      simp only [hslot, if_true, nibble_assignBit_of_outside 0 true (by omega) hout] at hzero
      cases h0 : g.SC.getLsbD 0 <;> cases h1 : g.SC.getLsbD 1 <;> simp_all
    · rintro ⟨hsc0, hsc1⟩ ADDR
      by_cases h0 : nibble ADDR (g.MSB_ADDR - 3) = 0
      · simp [h0, nibble_assignBit_of_outside ADDR true (k := 24) (by omega) hout, hsc0, hsc1]
      by_cases h1 : nibble ADDR (g.MSB_ADDR - 3) = 1
      · simp [h1, nibble_assignBit_of_outside ADDR false (k := 24) (by omega) hout, hsc0, hsc1]
      · simp [h0, h1]

/-- With one slot for each sixteenth of the memory, the swap hands on addresses of the wrong slot. -/
theorem decodedSlot_absoluteaddr_sixteenths :
    ¬∀ ADDR, decodedSlot ⟨1, 0, 0⟩ (addressDecoder ⟨1, 0, 0⟩ ADDR true).ABSOLUTEADDR false =
      decodedSlot ⟨1, 0, 0⟩ ADDR true := by
  intro hall
  have hmap := (decodedSlot_absoluteaddr_iff ⟨1, 0, 0⟩ (by decide)).mp hall
  exact absurd hmap (by decide)

end SidBridge.CoreAhbLite
