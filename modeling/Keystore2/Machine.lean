import Keystore2.Iter

/-!
# The iterator at the width of its cursor

`perm::IntoIter` keeps its position in a `u8`, and `next` computes `1 << self.pos` on `i32` and
`self.pos += 1` on `u8`. A debug build checks both: a shift by 32 or more, or an increment past
255, panics. A release build takes the shift amount modulo 32 and wraps the increment. `next` is
modelled here with those operations, a panic being `none`. On every state that it reaches from
`IntoIter::new`, in either build, `next` never panics and does what the `Nat`-level `next` of
`Keystore2.Iter` does (`next_refines`), so whole runs agree (`run_refines`).
-/

namespace Keystore2.Machine
open Keystore2.Catalog Keystore2.PermSet

/-- The overflow behaviour that Rust compiles integer operations with: with overflow checks
    (`debug`) an overflowing operation panics, without them (`release`) shift amounts are masked
    and additions wrap. -/
inductive Build where
  | debug | release
  deriving DecidableEq, Repr

/-- `x << amount` on `i32` with a `u8` amount; `none` is a panic. -/
def shl (build : Build) (x : BitVec 32) (amount : BitVec 8) : Option (BitVec 32) :=
  match build with
  | .debug => if amount.toNat < 32 then some (x <<< amount.toNat) else none
  | .release => some (x <<< (amount.toNat % 32))

/-- `n += 1` on `u8`; `none` is a panic. -/
def increment (build : Build) (n : BitVec 8) : Option (BitVec 8) :=
  match build with
  | .debug => if n.toNat < 255 then some (n + 1) else none
  | .release => some (n + 1)

variable {build : Build}

theorem shl_of_lt {x : BitVec 32} {amount : BitVec 8} (small : amount.toNat < 32) :
    shl build x amount = some (x <<< amount.toNat) := by
  cases build <;> simp [shl, small, Nat.mod_eq_of_lt small]

theorem increment_of_lt {n : BitVec 8} (small : n.toNat < 255) :
    increment build n = some (n + 1) := by
  cases build <;> simp [increment, small]

theorem eq_of_increment {n m : BitVec 8} (h : increment build n = some m) : m = n + 1 := by
  cases build <;> simp only [increment] at h
  · split at h <;> simp_all
  · simp_all

/-- `perm::IntoIter`, its cursor a `u8`. -/
structure IntoIter where
  vec : KeyPermSet
  pos : BitVec 8

def IntoIter.new (v : KeyPermSet) : IntoIter := ⟨v, 0⟩

/-- `IntoIter::next` in a build, with the iterator it leaves behind; `none` is a panic. The loop
    ends when `pos` comes round to 32, which bounds it from every cursor. -/
def IntoIter.next (build : Build) (it : IntoIter) : Option (Option KeyPerm × IntoIter) :=
  if _atEnd : it.pos = 32 then some (none, it)
  else
    match shl build 1#32 it.pos with
    | none => none
    | some bit =>
      let p := it.vec.val &&& bit
      match _grown : increment build it.pos with
      | none => none
      | some pos =>
        if p ≠ 0 then some (some (KeyPerm.from p), ⟨it.vec, pos⟩)
        else IntoIter.next build ⟨it.vec, pos⟩
termination_by (288 - it.pos.toNat) % 256
decreasing_by
  have bound := it.pos.isLt
  have other : it.pos.toNat ≠ 32 := fun e => _atEnd (BitVec.eq_of_toNat_eq (by simpa using e))
  simp [eq_of_increment _grown, BitVec.toNat_add]
  omega

/-- The results of `n` successive calls of `next`, or `none` if one of them panics. -/
def IntoIter.run (build : Build) : Nat → IntoIter → Option (List (Option KeyPerm))
  | 0, _ => some []
  | n + 1, it => do
    let (item, it') ← it.next build
    let rest ← IntoIter.run build n it'
    pure (item :: rest)

/-! ## Refining the `Nat`-level iterator -/

/-- The `u8` iterator at a state of the `Nat`-level one, whose cursor never passes 32. -/
def ofIter (it : Iter.IntoIter) : IntoIter := ⟨it.vec, BitVec.ofNat 8 it.pos⟩

@[simp] theorem ofIter_vec (it : Iter.IntoIter) : (ofIter it).vec = it.vec := rfl

@[simp] theorem toNat_ofIter_pos (it : Iter.IntoIter) : (ofIter it).pos.toNat = it.pos := by
  have := it.pos_le
  simp [ofIter]
  omega

theorem increment_ofIter {it : Iter.IntoIter} (below : it.pos < 32) :
    increment build (ofIter it).pos = some (BitVec.ofNat 8 (it.pos + 1)) := by
  rw [increment_of_lt (by rw [toNat_ofIter_pos]; omega)]
  congr 1
  exact BitVec.eq_of_toNat_eq (by simp [BitVec.toNat_add, ofIter])

/-- Below 32 the shift and the increment do not panic: `next` tests the bit at the cursor and
    yields it, or moves on. -/
theorem next_ofIter_below {it : Iter.IntoIter} (below : it.pos < 32) :
    (ofIter it).next build =
      if it.vec.val &&& 1#32 <<< it.pos ≠ 0 then
        some (some (KeyPerm.from (it.vec.val &&& 1#32 <<< it.pos)),
          ⟨it.vec, BitVec.ofNat 8 (it.pos + 1)⟩)
      else IntoIter.next build ⟨it.vec, BitVec.ofNat 8 (it.pos + 1)⟩ := by
  have notEnd : (ofIter it).pos ≠ 32 := fun e => by
    have := toNat_ofIter_pos it
    simp [e] at this
    omega
  rw [IntoIter.next, dif_neg notEnd,
    shl_of_lt (show (ofIter it).pos.toNat < 32 by simpa using below)]
  simp only [ofIter_vec, toNat_ofIter_pos]
  split <;> rename_i grown <;>
    simp only [increment_ofIter below, Option.some.injEq, reduceCtorEq] at grown
  rw [← grown]

/-- One step: on every state the `Nat`-level iterator can be in, the `u8` `next` does not panic
    and makes the same step, in either build. -/
theorem next_refines (it : Iter.IntoIter) :
    (ofIter it).next build = some (it.next.1, ofIter it.next.2) := by
  induction it using Iter.IntoIter.next.induct with
  | case1 it atEnd =>
    have atEnd' : (ofIter it).pos = 32 := by simp [ofIter, atEnd]
    rw [IntoIter.next, dif_pos atEnd', Iter.IntoIter.next, dif_pos atEnd]
  | case2 it notEnd _ set =>
    have below : it.pos < 32 := by have := it.pos_le; omega
    rw [next_ofIter_below below, if_pos set, Iter.IntoIter.next, dif_neg notEnd, if_pos set]
    rfl
  | case3 it notEnd _ _ clear ih =>
    have below : it.pos < 32 := by have := it.pos_le; omega
    rw [next_ofIter_below below, if_neg clear, Iter.IntoIter.next, dif_neg notEnd, if_neg clear]
    exact ih

/-- A run of `n` calls from a state of the `Nat`-level iterator never panics and returns what the
    `Nat`-level calls return. -/
theorem run_ofIter (n : Nat) (it : Iter.IntoIter) : (ofIter it).run build n = some (it.run n) := by
  induction n generalizing it with
  | zero => rfl
  | succ n ih => simp [IntoIter.run, Iter.IntoIter.run, next_refines, ih]

/-- In a debug and in a release build, `n` calls of `next` on `KeyPermSet(v).into_iter()` never
    panic: they yield `KeyPerm::from(1 << k)` for each set bit `k` in ascending order, then `None`. -/
theorem run_into_iter_bits (build : Build) (v : BitVec 32) (n : Nat) :
    (IntoIter.new ⟨v⟩).run build n = some ((List.range n).map fun i =>
      (((List.range 32).filter (v.getLsbD ·)).map fun k => KeyPerm.from (1#32 <<< k))[i]?) := by
  rw [show IntoIter.new ⟨v⟩ = ofIter (KeyPermSet.into_iter ⟨v⟩) from rfl, run_ofIter, Iter.run_eq,
    List.range_eq_range']
  rfl

end Keystore2.Machine
