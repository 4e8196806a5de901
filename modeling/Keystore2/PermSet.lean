import Keystore2.Catalog

/-!
# Permission sets

`KeyPermSet` is an `i32` bit field, and a set includes another when it has every bit the other
has. `key_perm_set!` ORs the codes of its arguments, so a set built from a list has exactly the
bits of its members, and inclusion of built sets is inclusion of their members other than
`none`, whose code has no bit.
-/

namespace Keystore2.PermSet
open Keystore2.Catalog

/-- `KeyPermSet`, a set of `KeyPerm` as an `i32` bit field. -/
structure KeyPermSet where
  val : BitVec 32
  deriving DecidableEq, Repr

/-- `From<KeyPerm> for KeyPermSet`. -/
def KeyPermSet.from (p : KeyPerm) : KeyPermSet := ⟨p.val.toI32⟩

/-- `KeyPermSet::includes`; the caller writes out `other.into()`. -/
def KeyPermSet.includes (self o : KeyPermSet) : Bool := (self.val &&& o.val) == o.val

/-- `key_perm_set![...]`. -/
def key_perm_set : List KeyPerm → KeyPermSet
  | [] => ⟨0⟩
  | head :: tail => ⟨tail.foldl (fun acc p => acc ||| p.val.toI32) head.val.toI32⟩

/-- Inclusion is inclusion of the bits. -/
theorem KeyPermSet.includes_iff (s o : KeyPermSet) :
    s.includes o = true ↔ ∀ i, o.val.getLsbD i = true → s.val.getLsbD i = true := by
  simp only [KeyPermSet.includes, beq_iff_eq]
  constructor
  · intro same i bit
    simpa [bit] using congrArg (BitVec.getLsbD · i) same
  · intro sub
    refine BitVec.eq_of_getLsbD_eq fun i => ?_
    cases bit : o.val.getLsbD i
    · simp [bit]
    · simp [bit, sub _ bit]

theorem KeyPermSet.includes_trans {s o u : KeyPermSet} (sub : s.includes o = true)
    (sub' : o.includes u = true) : s.includes u = true := by
  rw [KeyPermSet.includes_iff] at *
  exact fun i bit => sub i (sub' i bit)

/-- Two sets are equal when each includes the other. -/
theorem KeyPermSet.eq_iff_includes (s o : KeyPermSet) :
    s = o ↔ s.includes o = true ∧ o.includes s = true := by
  simp only [KeyPermSet.includes_iff]
  constructor
  · rintro rfl
    exact ⟨fun _ => id, fun _ => id⟩
  · rintro ⟨sub, sup⟩
    cases s; cases o
    exact congrArg _ (BitVec.eq_of_getLsbD_eq fun i => Bool.eq_iff_iff.mpr ⟨sup i, sub i⟩)

/-- A set includes a permission when it has the permission's bit. -/
theorem KeyPermSet.includes_from (s : KeyPermSet) (p : KeyPerm) :
    s.includes (.from p) = true ↔ ∀ k, p.val.bit = some k → s.val.getLsbD k = true := by
  simp [KeyPermSet.includes_iff, KeyPermSet.from]

/-- Every set includes `none`, whose code is 0. -/
theorem KeyPermSet.includes_none (s : KeyPermSet) : s.includes (.from KeyPerm.none) = true := by
  simp [KeyPermSet.includes_from, KeyPerm.none, KeyPermission.bit]

private theorem getLsbD_foldl_or (ps : List KeyPerm) (acc : BitVec 32) (i : Nat) :
    (ps.foldl (fun acc p => acc ||| p.val.toI32) acc).getLsbD i =
      (acc.getLsbD i || decide (∃ p ∈ ps, p.val.bit = some i)) := by
  induction ps generalizing acc with
  | nil => simp
  | cons p ps ih => simp [ih, Bool.or_assoc, or_and_right, exists_or]

/-- A built set has bit `i` when one of its members' codes has. -/
@[simp] theorem getLsbD_key_perm_set (ps : List KeyPerm) (i : Nat) :
    (key_perm_set ps).val.getLsbD i = decide (∃ p ∈ ps, p.val.bit = some i) := by
  cases ps with
  | nil => simp [key_perm_set]
  | cons p ps => simp [key_perm_set, getLsbD_foldl_or, or_and_right, exists_or]

/-- Every bit of the codes of `qs` is a bit of a code of `ps` exactly when every member of `qs`
    other than `none` is a member of `ps`. -/
theorem bits_subset_iff (ps qs : List KeyPerm) :
    (∀ i, (∃ q ∈ qs, q.val.bit = some i) → ∃ p ∈ ps, p.val.bit = some i) ↔
      ∀ q ∈ qs, q ≠ KeyPerm.none → q ∈ ps := by
  constructor
  · intro sub q member other
    obtain ⟨k, bit⟩ := KeyPerm.ne_none_iff_bit.mp other
    obtain ⟨p, chosen, same⟩ := sub k ⟨q, member, bit⟩
    exact KeyPerm.ext (KeyPermission.bit_injective same bit) ▸ chosen
  · rintro sub i ⟨q, member, bit⟩
    exact ⟨q, sub q member (KeyPerm.ne_none_iff_bit.mpr ⟨i, bit⟩), bit⟩

theorem key_perm_set_includes_iff (ps qs : List KeyPerm) :
    (key_perm_set ps).includes (key_perm_set qs) = true ↔
      ∀ q ∈ qs, q ≠ KeyPerm.none → q ∈ ps := by
  simp only [KeyPermSet.includes_iff, getLsbD_key_perm_set, decide_eq_true_eq]
  exact bits_subset_iff ps qs

example : (key_perm_set [⟨.Use⟩, ⟨.ManageBlob⟩, ⟨.Grant⟩]).includes
    (key_perm_set [⟨.Use⟩, ⟨.ManageBlob⟩]) = true := by decide


/-! ## Inclusion as an order -/

/-- On every `i32`, `includes` is a partial order: reflexive, transitive and antisymmetric. -/
theorem includes_partial_order :
    (∀ s : KeyPermSet, s.includes s = true) ∧
    (∀ s o u : KeyPermSet, s.includes o = true → o.includes u = true → s.includes u = true) ∧
    (∀ s o : KeyPermSet, s.includes o = true → o.includes s = true → s = o) := by
  refine ⟨fun s => (KeyPermSet.includes_iff s s).mpr fun _ => id,
    fun _ _ _ => KeyPermSet.includes_trans, fun s o sub sup => ?_⟩
  exact (KeyPermSet.eq_iff_includes s o).mpr ⟨sub, sup⟩

/-- A built set depends only on which permissions other than `none` are listed: not on their
    order, their repetitions, or `none`. -/
theorem key_perm_set_eq_iff (ps qs : List KeyPerm) :
    key_perm_set ps = key_perm_set qs ↔ ∀ p, p ≠ KeyPerm.none → (p ∈ ps ↔ p ∈ qs) := by
  simp only [KeyPermSet.eq_iff_includes, KeyPermSet.includes_iff, getLsbD_key_perm_set,
    decide_eq_true_eq, bits_subset_iff]
  constructor
  · rintro ⟨sub, sup⟩ p other
    exact ⟨fun listed => sup p listed other, fun listed => sub p listed other⟩
  · intro same
    exact ⟨fun q listed other => (same q other).mpr listed,
      fun p listed other => (same p other).mp listed⟩

end Keystore2.PermSet
