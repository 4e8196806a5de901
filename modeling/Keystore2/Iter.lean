import Keystore2.PermSet
import Mathlib.Data.List.Sort

/-!
# Iterating a permission set

`perm::IntoIter` tests the bits of the set from position `pos` up to 31 and yields, for each set
bit `k`, `KeyPerm::from(1 << k)`. Everything `next` does is read off `pendingFrom`, the set bits
from `pos` on: one call yields the decoding of the first of them, or `None` when there is none,
and leaves the rest pending (`next_spec`). A run of calls then yields them all in ascending
order and `None` from then on (`run_eq`).
-/

namespace Keystore2.Iter
open Keystore2.Catalog Keystore2.PermSet

/-- `perm::IntoIter`: the set and the next bit position to test. `new` starts at 0 and `next`
    stops at 32, so `pos` never passes 32 and the `u8` never wraps. -/
structure IntoIter where
  vec : KeyPermSet
  pos : Nat
  pos_le : pos ≤ 32

/-- `IntoIter::new`. -/
def IntoIter.new (v : KeyPermSet) : IntoIter := ⟨v, 0, by omega⟩

end Keystore2.Iter

namespace Keystore2.PermSet

/-- `IntoIterator for KeyPermSet`. -/
def KeyPermSet.into_iter (self : KeyPermSet) : Iter.IntoIter := Iter.IntoIter.new self

end Keystore2.PermSet

namespace Keystore2.Iter
open Keystore2.Catalog Keystore2.PermSet

/-- `IntoIter::next`, with the iterator it leaves behind. -/
def IntoIter.next (it : IntoIter) : Option KeyPerm × IntoIter :=
  if h : it.pos = 32 then (none, it)
  else
    let p := it.vec.val &&& 1#32 <<< it.pos
    let it' : IntoIter := ⟨it.vec, it.pos + 1, by have := it.pos_le; omega⟩
    if p ≠ 0 then (some (KeyPerm.from p), it') else it'.next
termination_by 32 - it.pos
decreasing_by have := it.pos_le; omega

/-- The results of `n` successive calls of `next`. -/
def IntoIter.run : Nat → IntoIter → List (Option KeyPerm)
  | 0, _ => []
  | n + 1, it => it.next.1 :: run n it.next.2

/-- The positions from `pos` to 31 at which `v` has a bit. -/
def pendingFrom (v : BitVec 32) (pos : Nat) : List Nat :=
  (List.range' pos (32 - pos)).filter (v.getLsbD ·)

/-- The item that a pending bit stands for. -/
def itemOf (k : Nat) : KeyPerm := KeyPerm.from (BitVec.twoPow 32 k)

theorem pendingFrom_of_le {v : BitVec 32} {pos : Nat} (h : 32 ≤ pos) : pendingFrom v pos = [] := by
  simp [pendingFrom, show 32 - pos = 0 by omega]

theorem pendingFrom_of_lt (v : BitVec 32) {pos : Nat} (h : pos < 32) :
    pendingFrom v pos =
      if v.getLsbD pos then pos :: pendingFrom v (pos + 1) else pendingFrom v (pos + 1) := by
  rw [pendingFrom, show 32 - pos = (32 - (pos + 1)) + 1 by omega, List.range'_succ,
    List.filter_cons]
  rfl

/-- After its first pending bit `k`, the bits pending from `k + 1` are the others. -/
theorem pendingFrom_succ {v : BitVec 32} {pos k : Nat} {rest : List Nat}
    (h : pendingFrom v pos = k :: rest) : pendingFrom v (k + 1) = rest := by
  have below : pos < 32 := by
    by_contra high
    simp [pendingFrom_of_le (show 32 ≤ pos by omega)] at h
  rw [pendingFrom_of_lt v below] at h
  split at h
  · cases h; rfl
  · exact pendingFrom_succ h
termination_by 32 - pos

theorem mem_pendingFrom {v : BitVec 32} {pos k : Nat} :
    k ∈ pendingFrom v pos ↔ pos ≤ k ∧ k < 32 ∧ v.getLsbD k = true := by
  simp only [pendingFrom, List.mem_filter, List.mem_range'_1]
  constructor
  · rintro ⟨⟨low, high⟩, bit⟩
    exact ⟨low, by omega, bit⟩
  · rintro ⟨low, high, bit⟩
    exact ⟨⟨low, by omega⟩, bit⟩

/-- The bit that `next` tests at `pos`: the bit itself when set, else 0. -/
theorem and_shift (v : BitVec 32) (pos : Nat) :
    v &&& 1#32 <<< pos = if v.getLsbD pos then BitVec.twoPow 32 pos else 0 :=
  BitVec.and_twoPow v pos

theorem and_shift_ne_zero {v : BitVec 32} {pos : Nat} (below : pos < 32) :
    v &&& 1#32 <<< pos ≠ 0 ↔ v.getLsbD pos = true := by
  have bit : BitVec.twoPow 32 pos ≠ 0 := fun h => by
    simpa [BitVec.getLsbD_twoPow, below] using congrArg (BitVec.getLsbD · pos) h
  rw [and_shift]
  split <;> simp_all

/-- One call of `next`: it yields the item of the first pending bit and moves past it, or it
    yields `None` and stops at 32 when no bit is pending. -/
theorem next_spec (it : IntoIter) :
    it.next.2.vec = it.vec ∧
      match pendingFrom it.vec.val it.pos with
      | [] => it.next.1 = none ∧ it.next.2.pos = 32
      | k :: _ => it.next.1 = some (itemOf k) ∧ it.next.2.pos = k + 1 := by
  induction it using IntoIter.next.induct with
  | case1 it atEnd =>
    rw [IntoIter.next, dif_pos atEnd, pendingFrom_of_le (by omega)]
    exact ⟨rfl, rfl, atEnd⟩
  | case2 it notEnd _ set =>
    have below : it.pos < 32 := by have := it.pos_le; omega
    have bit : it.vec.val.getLsbD it.pos = true := (and_shift_ne_zero below).mp set
    rw [IntoIter.next, dif_neg notEnd, if_pos set, pendingFrom_of_lt _ below, if_pos bit]
    exact ⟨rfl, by simp [itemOf, and_shift, bit], rfl⟩
  | case3 it notEnd _ _ clear ih =>
    have below : it.pos < 32 := by have := it.pos_le; omega
    have bit : it.vec.val.getLsbD it.pos = false := by
      have zero : ¬(it.vec.val &&& 1#32 <<< it.pos ≠ 0) := clear
      rw [and_shift_ne_zero below] at zero
      simpa using zero
    rw [IntoIter.next, dif_neg notEnd, if_neg clear, pendingFrom_of_lt _ below, bit]
    exact ih

/-- `next` only ever moves forward, and past the bit it yields. -/
theorem next_pos_lt {it : IntoIter} {p : KeyPerm} (h : it.next.1 = some p) :
    it.pos < it.next.2.pos := by
  obtain ⟨-, step⟩ := next_spec it
  cases pending : pendingFrom it.vec.val it.pos with
  | nil => simp [pending, h] at step
  | cons k rest =>
    simp only [pending] at step
    have first := (mem_pendingFrom.mp (pending ▸ List.mem_cons_self k rest)).1
    omega

/-- A run of `n` calls of `next`: call `i` yields the item of the `i`-th pending bit, and `None`
    once there are no more. -/
theorem run_eq (n : Nat) (it : IntoIter) :
    it.run n = (List.range n).map fun i => ((pendingFrom it.vec.val it.pos).map itemOf)[i]? := by
  induction n generalizing it with
  | zero => rfl
  | succ n ih =>
    obtain ⟨same, step⟩ := next_spec it
    rw [IntoIter.run, ih, same, List.range_succ_eq_map, List.map_cons, List.map_map]
    cases pending : pendingFrom it.vec.val it.pos with
    | nil =>
      simp only [pending] at step
      simp [step.1, step.2, pendingFrom_of_le, Function.comp_def, List.map_const']
    | cons k rest =>
      simp only [pending] at step
      simp [step.1, step.2, pendingFrom_succ pending, Function.comp_def]

/-- The items that `for p in it` visits: what `next` yields before its first `None`. -/
def IntoIter.items (it : IntoIter) : List KeyPerm :=
  match _yielded : it.next with
  | (some p, it') => p :: it'.items
  | (none, _) => []
termination_by 32 - it.pos
decreasing_by
  have forward := @next_pos_lt it p (by rw [_yielded])
  rw [_yielded] at forward
  dsimp only at forward
  have := it'.pos_le
  omega

/-- The loop visits the items of the pending bits, in ascending order. -/
theorem items_eq (it : IntoIter) : it.items = (pendingFrom it.vec.val it.pos).map itemOf := by
  induction it using IntoIter.items.induct with
  | case1 it p it' yielded ih =>
    obtain ⟨same, step⟩ := next_spec it
    rw [yielded] at same step
    dsimp only at same
    cases pending : pendingFrom it.vec.val it.pos with
    | nil => simp [pending] at step
    | cons k rest =>
      simp only [pending, Option.some.injEq] at step
      rw [IntoIter.items, yielded]
      dsimp only
      rw [ih, step.1, step.2, same, pendingFrom_succ pending, List.map_cons]
  | case2 it it' ended =>
    obtain ⟨-, step⟩ := next_spec it
    rw [ended] at step
    cases pending : pendingFrom it.vec.val it.pos with
    | nil => rw [IntoIter.items, ended]; rfl
    | cons k rest => simp [pending] at step

/-- The items of a set's iteration: the decodings of its bits, in ascending order. -/
theorem into_iter_items (s : KeyPermSet) : s.into_iter.items =
    ((List.range 32).filter (s.val.getLsbD ·)).map fun k => KeyPerm.from (1#32 <<< k) := by
  rw [items_eq, List.range_eq_range']
  rfl

/-- The items of a set's iteration are the decodings of its set bits. -/
theorem mem_items {s : KeyPermSet} {p : KeyPerm} :
    p ∈ s.into_iter.items ↔ ∃ k < 32, s.val.getLsbD k = true ∧ itemOf k = p := by
  simp only [items_eq, List.mem_map, mem_pendingFrom]
  exact ⟨fun ⟨k, ⟨_, small, set⟩, same⟩ => ⟨k, small, set, same⟩,
    fun ⟨k, small, set, same⟩ => ⟨k, ⟨Nat.zero_le k, small, set⟩, same⟩⟩

/-- A permission other than `none` that a set includes is among the items of its iteration. -/
theorem mem_items_of_includes {s : KeyPermSet} {p : KeyPerm} (included : s.includes (.from p) = true)
    (other : p ≠ KeyPerm.none) : p ∈ s.into_iter.items := by
  obtain ⟨k, bit⟩ := KeyPerm.ne_none_iff_bit.mp other
  have small := KeyPermission.bit_lt bit
  exact mem_items.mpr ⟨k, by omega, (KeyPermSet.includes_from s p).mp included k bit,
    KeyPerm.from_twoPow bit⟩

/-- An item other than `none` of a set's iteration is a permission the set includes. -/
theorem includes_of_mem_items {s : KeyPermSet} {p : KeyPerm} (listed : p ∈ s.into_iter.items)
    (other : p ≠ KeyPerm.none) : s.includes (.from p) = true := by
  obtain ⟨k, small, set, rfl⟩ := mem_items.mp listed
  have low : k < 11 := by
    by_contra high
    exact other (KeyPerm.from_twoPow_high (by omega) small)
  have bit : (itemOf k).val.bit = some k := by
    interval_cases k <;> rfl
  refine (KeyPermSet.includes_from s _).mpr fun j own => ?_
  rw [bit, Option.some.injEq] at own
  exact own ▸ set

/-! ## Iterating a raw bit field and a built set -/

theorem into_iter_run (v : BitVec 32) (n : Nat) :
    (KeyPermSet.into_iter ⟨v⟩).run n = (List.range n).map (fun i =>
      (((List.range 32).filter (v.getLsbD ·)).map fun k => KeyPerm.from (1#32 <<< k))[i]?) ∧
    ∀ k < 32, (11 ≤ k → KeyPerm.from (1#32 <<< k) = KeyPerm.none) ∧
      (k ≤ 10 → (KeyPerm.from (1#32 <<< k)).val.toI32 = 1#32 <<< k) := by
  refine ⟨by rw [run_eq, List.range_eq_range']; rfl, fun k below => ⟨?_, ?_⟩⟩
  · exact fun high => KeyPerm.from_twoPow_high high below
  · intro low
    interval_cases k <;> rfl

/-- A pending bit of a built set is the bit of a member, and stands for that member. -/
theorem itemOf_key_perm_set {ps : List KeyPerm} {k : Nat}
    (pending : k ∈ pendingFrom (key_perm_set ps).val 0) :
    itemOf k ∈ ps ∧ (itemOf k).val.bit = some k := by
  obtain ⟨-, -, bit⟩ := mem_pendingFrom.mp pending
  obtain ⟨p, member, own⟩ := by simpa using bit
  rw [itemOf, KeyPerm.from_twoPow own]
  exact ⟨member, own⟩

theorem key_perm_set_into_iter (ps : List KeyPerm) : ∃ items : List KeyPerm,
    items.Sorted (fun p q => p.val.toI32.toNat < q.val.toI32.toNat) ∧
    (∀ p, p ∈ items ↔ p ∈ ps ∧ p ≠ KeyPerm.none) ∧
    ∀ n, (key_perm_set ps).into_iter.run n = (List.range n).map (items[·]?) := by
  refine ⟨(pendingFrom (key_perm_set ps).val 0).map itemOf, ?_, fun p => ?_, fun n => run_eq n _⟩
  · refine List.pairwise_map.mpr ((List.pairwise_lt_range' 0 (32 - 0)).filter _ |>.imp_of_mem ?_)
    intro a b memA memB less
    rw [KeyPermission.toNat_toI32 (itemOf_key_perm_set memA).2,
      KeyPermission.toNat_toI32 (itemOf_key_perm_set memB).2]
    exact Nat.pow_lt_pow_right (by omega) less
  · constructor
    · intro listed
      obtain ⟨k, pending, rfl⟩ := List.mem_map.mp listed
      obtain ⟨member, bit⟩ := itemOf_key_perm_set pending
      exact ⟨member, KeyPerm.ne_none_iff_bit.mpr ⟨k, bit⟩⟩
    · rintro ⟨member, other⟩
      obtain ⟨k, bit⟩ := KeyPerm.ne_none_iff_bit.mp other
      have small := KeyPermission.bit_lt bit
      refine List.mem_map.mpr ⟨k, mem_pendingFrom.mpr ⟨by omega, by omega, ?_⟩, ?_⟩
      · simpa using ⟨p, member, bit⟩
      · rw [itemOf, KeyPerm.from_twoPow bit]

end Keystore2.Iter
