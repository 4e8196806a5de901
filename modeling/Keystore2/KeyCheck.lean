import Keystore2.Check

/-!
# The key check, domain by domain

`check_key_permission` allows exactly when its domain's condition holds: the oracle allows the
permission on keystore's own context (`App`) or on the namespace's context (`SELinux`), allows
both `manage_blob` and the permission on the namespace's context (`Blob`), or the access vector
includes the permission (`Grant`, with no backend call). `KeyId`, and `Grant` without an access
vector, never allow.
-/

namespace Keystore2.KeyCheck
open Keystore2.Catalog Keystore2.PermSet Keystore2.Selinux Keystore2.Check

variable (c : Context) (perm : KeyPerm) (k : KeyDescriptor) (av : Option KeyPermSet) (b : Backend)

/-- When the key check allows, by domain. -/
theorem run_check_key_permission_eq_ok :
    (check_key_permission c perm k av).run b = .ok () ↔
      (k.domain = .App ∧ ∃ t, b.getcon = .ok t ∧
        b.checkAccess c t "keystore2_key" perm.to_selinux = .ok ()) ∨
      (k.domain = .SELinux ∧ b.keystoreKeyBackendNew = .ok () ∧ ∃ t, b.lookup k.namespaceKey = .ok t ∧
        b.checkAccess c t "keystore2_key" perm.to_selinux = .ok ()) ∨
      (k.domain = .Blob ∧ b.keystoreKeyBackendNew = .ok () ∧ ∃ t, b.lookup k.namespaceKey = .ok t ∧
        b.checkAccess c t "keystore2_key" "manage_blob" = .ok () ∧
        b.checkAccess c t "keystore2_key" perm.to_selinux = .ok ()) ∨
      (k.domain = .Grant ∧ ∃ s, av = some s ∧ s.includes (.from perm) = true) := by
  cases hd : k.domain <;> cases av <;>
    simp [check_key_permission, hd, Unique.exists_iff, apply_ite (Prog.run b), and_assoc]

/-- On `Domain::App` and `Domain::SELinux` the key check is the oracle's answer on the key's
    target. -/
theorem run_check_key_permission_served {k : KeyDescriptor}
    (served : k.domain = .App ∨ k.domain = .SELinux) :
    (check_key_permission c perm k av).run b = .ok () ↔
      ∃ t, Target b k t ∧ b.checkAccess c t "keystore2_key" perm.to_selinux = .ok () := by
  rcases served with hd | hd <;> simp [run_check_key_permission_eq_ok, Target, hd, and_assoc]

/-- A `Domain::Grant` check reads only the permission and the access vector. -/
theorem run_check_key_permission_grant {k : KeyDescriptor} (grant : k.domain = .Grant) :
    (check_key_permission c perm k av).run b =
      match av with
      | some s => if s.includes (.from perm) then .ok ()
        else .error ⟨.selinux .perm, ["\"" ++ perm.to_selinux ++ "\" not granted"]⟩
      | none => .error ⟨.sys, ["Cannot check permission for Domain::Grant without access vector."]⟩ := by
  cases av <;> simp [check_key_permission, grant, apply_ite (Prog.run b), Prog.run_context] <;> rfl

theorem check_key_permission_domain_decision :
    ((check_key_permission c perm k av).run b = .ok () ↔
      (k.domain = .App ∧ ∃ t, b.getcon = .ok t ∧
        b.checkAccess c t "keystore2_key" perm.to_selinux = .ok ()) ∨
      (k.domain = .SELinux ∧ b.keystoreKeyBackendNew = .ok () ∧ ∃ t, b.lookup k.namespaceKey = .ok t ∧
        b.checkAccess c t "keystore2_key" perm.to_selinux = .ok ()) ∨
      (k.domain = .Blob ∧ b.keystoreKeyBackendNew = .ok () ∧ ∃ t, b.lookup k.namespaceKey = .ok t ∧
        b.checkAccess c t "keystore2_key" "manage_blob" = .ok () ∧
        b.checkAccess c t "keystore2_key" perm.to_selinux = .ok ()) ∨
      (k.domain = .Grant ∧ ∃ s, av = some s ∧ s.includes (.from perm) = true)) ∧
    (k.domain = .Grant → ∀ (c' : Context) (k' : KeyDescriptor) (b' : Backend), k'.domain = .Grant →
      (check_key_permission c' perm k' av).run b' = (check_key_permission c perm k av).run b) :=
  ⟨run_check_key_permission_eq_ok c perm k av b, fun grant c' _ b' grant' => by
    rw [run_check_key_permission_grant c' perm av b' grant', run_check_key_permission_grant c perm av b grant]⟩

/-! ## The `none` sentinel -/

/-- `none` has code 0, which every access vector includes: a `Domain::Grant` check of `none`
    passes, even under a policy that allows nothing. -/
theorem check_key_permission_none_grant_passes :
    ¬∀ (c : Context) (k : KeyDescriptor) (av : Option KeyPermSet) (b : Backend),
      (∀ s t tclass, b.checkAccess s t tclass "none" ≠ .ok ()) →
        (check_key_permission c KeyPerm.none k av).run b ≠ .ok () := fun noneNeverPasses =>
  noneNeverPasses ⟨""⟩ ⟨.Grant, 0⟩ (some ⟨0⟩) (.ofPolicy ⟨""⟩ fun _ _ _ _ => false)
    (fun _ _ _ => by simp [Backend.ofPolicy]) rfl

/-- Under an oracle that never allows `"none"`, a check of `none` passes exactly for a
    `Domain::Grant` key with an access vector. -/
theorem check_key_permission_none_iff
    (unknown : ∀ s t tclass, b.checkAccess s t tclass "none" ≠ .ok ()) :
    (check_key_permission c KeyPerm.none k av).run b = .ok () ↔ k.domain = .Grant ∧ av.isSome := by
  rw [run_check_key_permission_eq_ok]
  simp [unknown, KeyPermSet.includes_none, Option.isSome_iff_exists]

theorem check_key_permission_none_iff_app :
    (∀ s t tclass, (Backend.ofPolicy ⟨""⟩ fun _ _ _ _ => false).checkAccess s t tclass "none" ≠ .ok ()) ∧
    ((check_key_permission ⟨""⟩ KeyPerm.none ⟨.App, 0⟩ none).run (.ofPolicy ⟨""⟩ fun _ _ _ _ => false) = .ok () ↔
      Domain.App = .Grant ∧ (none : Option KeyPermSet).isSome) := by
  have unknown : ∀ s t tclass,
      (Backend.ofPolicy ⟨""⟩ fun _ _ _ _ => false).checkAccess s t tclass "none" ≠ .ok () := by
    simp [Backend.ofPolicy]
  exact ⟨unknown, check_key_permission_none_iff _ _ _ _ unknown⟩

/-! ## The queries -/

/-- A `Domain::Grant` or `Domain::KeyId` check makes no backend call. On a key whose target
    resolves to `t`, the check asks for the permission on `t`, after `manage_blob` on
    `Domain::Blob`; a denied `manage_blob` ends the check. -/
theorem check_key_permission_queries :
    (k.domain = .Grant ∨ k.domain = .KeyId → (check_key_permission c perm k av).calls b = []) ∧
    ∀ t, Target b k t → ((check_key_permission c perm k av).calls b).filter Call.isCheckAccess =
      if k.domain = .Blob then
        .checkAccess c t "keystore2_key" "manage_blob" ::
          if (b.checkAccess c t "keystore2_key" "manage_blob").toBool then
            [.checkAccess c t "keystore2_key" perm.to_selinux]
          else []
      else [.checkAccess c t "keystore2_key" perm.to_selinux] := by
  constructor
  · rintro (hd | hd) <;> cases av <;> simp [check_key_permission, hd, apply_ite (Prog.calls b)]
  · intro t resolves
    cases hd : k.domain <;> simp only [Target, hd] at resolves
    case App => simp [check_key_permission, hd, resolves, Prog.run_context, Call.isCheckAccess]
    case SELinux =>
      simp [check_key_permission, lookupNamespace, hd, resolves, Prog.run_bind, Prog.run_context,
        run_new, run_lookup, Call.isCheckAccess]
    case Blob =>
      cases allowed : b.checkAccess c t "keystore2_key" "manage_blob" <;>
        simp [check_key_permission, lookupNamespace, hd, resolves, Prog.run_bind, Prog.run_context,
          run_new, run_lookup, run_check_access, allowed, Call.isCheckAccess, Except.toBool]

/-! ## The keystore check -/

/-- `check_keystore_permission` allows exactly when the oracle allows the permission on
    keystore's own context, and every error it returns is the backend's. -/
theorem check_keystore_permission_decision (p : KeystorePerm) :
    ((check_keystore_permission c p).run b = .ok () ↔
      ∃ t, b.getcon = .ok t ∧ b.checkAccess c t "keystore2" p.to_selinux = .ok ()) ∧
    (check_keystore_permission c p).Propagates b :=
  ⟨by simp [check_keystore_permission],
    (propagates_getcon.context _).bind fun _ => propagates_check_access⟩

end Keystore2.KeyCheck
