import Mathlib.Tactic.DeriveFintype
import Mathlib.Tactic.IntervalCases

/-!
# The permission catalogs

`implement_permission!` turns one table of variants, wire values and selinux names into the
decoding `From<i32>` and the `to_selinux` of a permission type. `PermissionTable` is that table
and `PermissionTable.from` and `PermissionTable.to_selinux` the code it generates; `KeyPerm`
(class `keystore2_key`) and `KeystorePerm` (class `keystore2`) are its two invocations.
Decoding is fail-closed: a value that the table does not list decodes to the default, `none`.
-/

namespace Keystore2.Catalog

/-- The arguments of one `implement_permission!` invocation: the default variant with its value
    and selinux name, then the other variants with theirs. The generated `to_selinux` is an
    exhaustive match, so every variant is listed. -/
structure PermissionTable (τ : Type) where
  default : τ × BitVec 32 × String
  elements : List (τ × BitVec 32 × String)
  exhaustive : ∀ v, v = default.1 ∨ ∃ e ∈ elements, e.1 = v

variable {τ : Type}

/-- The generated `From<i32>`: the default's value, then each element's value in order, and
    every other value to the default. -/
def PermissionTable.from (t : PermissionTable τ) (p : BitVec 32) : τ :=
  if p = t.default.2.1 then t.default.1
  else match t.elements.find? (fun e => e.2.1 = p) with
    | some e => e.1
    | none => t.default.1

/-- The generated `to_selinux`; its last arm is unreachable by `exhaustive`. -/
def PermissionTable.to_selinux [DecidableEq τ] (t : PermissionTable τ) (v : τ) : String :=
  if v = t.default.1 then t.default.2.2
  else match t.elements.find? (fun e => e.1 = v) with
    | some e => e.2.2
    | none => t.default.2.2

/-- Decoding is fail-closed: a value that no element carries decodes to the default. -/
theorem PermissionTable.from_unlisted (t : PermissionTable τ) {p : BitVec 32}
    (unlisted : ∀ e ∈ t.elements, e.2.1 ≠ p) : t.from p = t.default.1 := by
  have missing : t.elements.find? (fun e => e.2.1 = p) = none :=
    List.find?_eq_none.mpr (by simpa using unlisted)
  unfold PermissionTable.from
  split_ifs <;> simp [missing]

/-! ## `KeyPerm` -/

inductive KeyPermission where
  | None | Delete | GenUniqueId | GetInfo | Grant | List | ManageBlob | Rebind | ReqForcedOp
  | Update | Use | UseDevId
  deriving DecidableEq, Repr, Fintype

/-- `KeyPermission as i32`. The AIDL enum is generated outside this repository; its
    discriminants are taken to be the values that the invocation lists, which the generated
    `key_perm_tests` check. -/
def KeyPermission.toI32 : KeyPermission → BitVec 32
  | .None => 0 | .Delete => 1 | .GenUniqueId => 2 | .GetInfo => 4 | .Grant => 8
  | .List => 0x10 | .ManageBlob => 0x20 | .Rebind => 0x40 | .ReqForcedOp => 0x80
  | .Update => 0x100 | .Use => 0x200 | .UseDevId => 0x400

/-- The invocation of `implement_permission!` for `KeyPerm`. -/
def keyPermTable : PermissionTable KeyPermission where
  default := (.None, 0, "none")
  elements := [(.Delete, 1, "delete"), (.GenUniqueId, 2, "gen_unique_id"),
    (.GetInfo, 4, "get_info"), (.Grant, 8, "grant"), (.List, 0x10, "list"),
    (.ManageBlob, 0x20, "manage_blob"), (.Rebind, 0x40, "rebind"),
    (.ReqForcedOp, 0x80, "req_forced_op"), (.Update, 0x100, "update"), (.Use, 0x200, "use"),
    (.UseDevId, 0x400, "use_dev_id")]
  exhaustive := by decide

/-- `KeyPerm`, the wrapper that `implement_permission!` puts around `KeyPermission`. -/
@[ext] structure KeyPerm where
  val : KeyPermission
  deriving DecidableEq, Repr

def KeyPerm.from (p : BitVec 32) : KeyPerm := ⟨keyPermTable.from p⟩

/-- `KeyPerm::to_selinux`, the permission's name in `selinux::check_access`. -/
def KeyPerm.to_selinux (perm : KeyPerm) : String := keyPermTable.to_selinux perm.val

def KeyPerm.none : KeyPerm := ⟨.None⟩
def KeyPerm.grant : KeyPerm := ⟨.Grant⟩
def KeyPerm.manage_blob : KeyPerm := ⟨.ManageBlob⟩

@[simp] theorem KeyPerm.none_to_selinux : KeyPerm.none.to_selinux = "none" := rfl
@[simp] theorem KeyPerm.grant_to_selinux : KeyPerm.grant.to_selinux = "grant" := rfl
@[simp] theorem KeyPerm.manage_blob_to_selinux : KeyPerm.manage_blob.to_selinux = "manage_blob" := rfl

/-- The bit that a permission's code sets; `None`, of code 0, sets none. -/
def KeyPermission.bit : KeyPermission → Option Nat
  | .None => none | .Delete => some 0 | .GenUniqueId => some 1 | .GetInfo => some 2
  | .Grant => some 3 | .List => some 4 | .ManageBlob => some 5 | .Rebind => some 6
  | .ReqForcedOp => some 7 | .Update => some 8 | .Use => some 9 | .UseDevId => some 10

/-- The generated `key_perm_tests`: every variant's wire value decodes to it. -/
theorem KeyPerm.from_toI32 (v : KeyPermission) : KeyPerm.from v.toI32 = ⟨v⟩ := by
  cases v <;> rfl

namespace KeyPermission

theorem bit_eq_none {v : KeyPermission} : v.bit = none ↔ v = .None := by
  cases v <;> simp [bit]

theorem toNat_toI32 {v : KeyPermission} {k : Nat} (h : v.bit = some k) : v.toI32.toNat = 2 ^ k := by
  cases v <;> simp [bit] at h <;> subst h <;> rfl

theorem bit_lt {v : KeyPermission} {k : Nat} (h : v.bit = some k) : k < 11 := by
  cases v <;> simp [bit] at h <;> omega

theorem toI32_eq_twoPow {v : KeyPermission} {k : Nat} (h : v.bit = some k) :
    v.toI32 = BitVec.twoPow 32 k := by
  cases v <;> simp [bit] at h <;> subst h <;> rfl

theorem bit_injective {v w : KeyPermission} {k : Nat} (hv : v.bit = some k)
    (hw : w.bit = some k) : v = w := by
  have separate : ∀ v w : KeyPermission, v.bit = w.bit → v.bit ≠ none → v = w := by decide
  exact separate v w (hv.trans hw.symm) (by simp [hv])

@[simp] theorem getLsbD_toI32 (v : KeyPermission) (i : Nat) :
    v.toI32.getLsbD i = decide (v.bit = some i) := by
  cases h : v.bit with
  | none => simp [bit_eq_none.mp h, toI32]
  | some k =>
    have small := bit_lt h
    simp [toI32_eq_twoPow h, BitVec.getLsbD_twoPow]
    omega

end KeyPermission

theorem KeyPerm.ne_none_iff_bit {p : KeyPerm} : p ≠ KeyPerm.none ↔ ∃ k, p.val.bit = some k := by
  obtain ⟨v⟩ := p
  cases v <;> simp [KeyPerm.none, KeyPermission.bit]

theorem KeyPerm.from_twoPow {v : KeyPermission} {k : Nat} (h : v.bit = some k) :
    KeyPerm.from (BitVec.twoPow 32 k) = ⟨v⟩ := by
  rw [← KeyPermission.toI32_eq_twoPow h, KeyPerm.from_toI32]

/-- A single bit above bit 10 is no permission's code and decodes to `none`. -/
theorem KeyPerm.from_twoPow_high {k : Nat} (high : 11 ≤ k) (small : k < 32) :
    KeyPerm.from (BitVec.twoPow 32 k) = KeyPerm.none := by
  interval_cases k <;> rfl

/-- Only `grant` is named `"grant"` in a query. -/
theorem KeyPerm.eq_grant_of_to_selinux {p : KeyPerm} (named : p.to_selinux = "grant") :
    p = KeyPerm.grant := by
  obtain ⟨v⟩ := p
  revert named
  cases v <;> decide

/-! ## `KeystorePerm` -/

/-- `KeystorePermission`, the permissions of the SELinux class `keystore2`. -/
inductive KeystorePermission where
  | None | AddAuth | ClearNs | GetState | Lock | Reset | Unlock
  deriving DecidableEq, Repr, Fintype

/-- `KeystorePermission as i32`, its `#[repr(i32)]` discriminants. -/
def KeystorePermission.toI32 : KeystorePermission → BitVec 32
  | .None => 0 | .AddAuth => 1 | .ClearNs => 2 | .GetState => 4 | .Lock => 8 | .Reset => 0x10
  | .Unlock => 0x20

/-- The invocation of `implement_permission!` for `KeystorePerm`. -/
def keystorePermTable : PermissionTable KeystorePermission where
  default := (.None, 0, "none")
  elements := [(.AddAuth, 1, "add_auth"), (.ClearNs, 2, "clear_ns"), (.GetState, 4, "get_state"),
    (.Lock, 8, "lock"), (.Reset, 0x10, "reset"), (.Unlock, 0x20, "unlock")]
  exhaustive := by decide

/-- `KeystorePerm`, the wrapper that `implement_permission!` puts around `KeystorePermission`. -/
structure KeystorePerm where
  val : KeystorePermission
  deriving DecidableEq, Repr

def KeystorePerm.from (p : BitVec 32) : KeystorePerm := ⟨keystorePermTable.from p⟩

def KeystorePerm.to_selinux (perm : KeystorePerm) : String := keystorePermTable.to_selinux perm.val

/-- The generated `keystore_perm_tests`: every discriminant decodes to its variant. -/
theorem KeystorePerm.from_toI32 (v : KeystorePermission) : KeystorePerm.from v.toI32 = ⟨v⟩ := by
  cases v <;> rfl

/-! ## Every invocation -/

/-- The values of an invocation are pairwise distinct. -/
def PermissionTable.DistinctValues (t : PermissionTable τ) : Prop :=
  ((t.default :: t.elements).map (·.2.1)).Nodup

/-- The selinux names of an invocation are pairwise distinct. -/
def PermissionTable.DistinctNames (t : PermissionTable τ) : Prop :=
  ((t.default :: t.elements).map (·.2.2)).Nodup

instance (t : PermissionTable τ) : Decidable t.DistinctValues :=
  inferInstanceAs (Decidable (List.Nodup _))

instance (t : PermissionTable τ) : Decidable t.DistinctNames :=
  inferInstanceAs (Decidable (List.Nodup _))

theorem find?_eq_of_unique {α : Type} {l : List α} {q : α → Bool} {e : α} (listed : e ∈ l)
    (hit : q e = true) (only : ∀ x ∈ l, q x = true → x = e) : l.find? q = some e := by
  obtain ⟨x, hx⟩ := Option.isSome_iff_exists.mp (List.find?_isSome.mpr ⟨e, listed, hit⟩)
  rw [hx, only x (List.mem_of_find?_eq_some hx) (List.find?_some hx)]

theorem PermissionTable.from_listed (t : PermissionTable τ) (distinct : t.DistinctValues)
    {e : τ × BitVec 32 × String} (listed : e ∈ t.default :: t.elements) : t.from e.2.1 = e.1 := by
  rcases List.mem_cons.mp listed with rfl | listed
  · simp [PermissionTable.from]
  · have other : e.2.1 ≠ t.default.2.1 := fun same =>
      (List.nodup_cons.mp distinct).1 (List.mem_map.mpr ⟨e, listed, same⟩)
    have found : (t.elements.find? fun x => x.2.1 = e.2.1) = some e :=
      find?_eq_of_unique listed (by simp) fun x member same =>
        List.inj_on_of_nodup_map (List.nodup_cons.mp distinct).2 member listed (of_decide_eq_true same)
    simp [PermissionTable.from, other, found]

/-- Every variant's `to_selinux` is the name of an entry listed with it; the unreachable last
    arm is never taken. -/
theorem PermissionTable.to_selinux_entry [DecidableEq τ] (t : PermissionTable τ) (v : τ) :
    ∃ e ∈ t.default :: t.elements, e.1 = v ∧ t.to_selinux v = e.2.2 := by
  unfold PermissionTable.to_selinux
  split_ifs with isDefault
  · exact ⟨t.default, List.mem_cons_self _ _, isDefault.symm, rfl⟩
  · have listed : ∃ e ∈ t.elements, decide (e.1 = v) = true := by
      rcases t.exhaustive v with isDefault' | ⟨e, mem, same⟩
      exacts [absurd isDefault' isDefault, ⟨e, mem, by simp [same]⟩]
    obtain ⟨e, hit⟩ := Option.isSome_iff_exists.mp (List.find?_isSome.mpr listed)
    rw [hit]
    exact ⟨e, List.mem_cons_of_mem _ (List.mem_of_find?_eq_some hit),
      by simpa using List.find?_some hit, rfl⟩

end Keystore2.Catalog
