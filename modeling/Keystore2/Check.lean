import Keystore2.Iter
import Keystore2.Selinux

/-!
# The permission checks

`check_keystore_permission`, `check_grant_permission` and `check_key_permission` as programs over
the selinux backend. A key's target context comes from its domain: keystore's own context for
`Domain::App`, the key's namespace looked up in the keystore key backend for `Domain::SELinux`
and `Domain::Blob`. `Domain::Grant` is decided by the access vector alone, and `Domain::KeyId`
is never served.
-/

namespace Keystore2.Check
open Keystore2.Catalog Keystore2.PermSet Keystore2.Iter Keystore2.Selinux

/-- `aidl::Domain`. -/
inductive Domain where
  | App | SELinux | Grant | KeyId | Blob
  deriving DecidableEq, Repr

/-- `{:?}` of `aidl::Domain`: the AIDL enum is generated outside this repository, and its
    `Debug` is assumed to be the derived one, which prints the variant's name. -/
def Domain.debug : Domain → String
  | .App => "App" | .SELinux => "SELinux" | .Grant => "Grant" | .KeyId => "KeyId"
  | .Blob => "Blob"

/-- `aidl::KeyDescriptor`, with the fields the checks read. -/
structure KeyDescriptor where
  domain : Domain
  namespace_ : BitVec 64
  deriving DecidableEq, Repr

/-- `format!("{}", key.namespace_)`, the decimal text of the `i64`. -/
def KeyDescriptor.namespaceKey (key : KeyDescriptor) : String := toString key.namespace_.toInt

/-- `getcon()`. -/
def getcon : Prog Context := Prog.invoke .getcon

/-- `KeystoreKeyBackend::new()`. -/
def KeystoreKeyBackend.new : Prog Unit := Prog.invoke .keystoreKeyBackendNew

/-- `backend.lookup(key)`. -/
def lookup (key : String) : Prog Context := Prog.invoke (.lookup key)

/-- `selinux::check_access`. -/
def check_access (source target : Context) (tclass perm : String) : Prog Unit :=
  Prog.invoke (.checkAccess source target tclass perm)

variable {b : Backend}

@[simp] theorem run_getcon : getcon.run b = b.getcon.mapError Prog.lift := Prog.run_invoke _

theorem run_new : KeystoreKeyBackend.new.run b = b.keystoreKeyBackendNew.mapError Prog.lift :=
  Prog.run_invoke _

theorem run_lookup {key : String} : (lookup key).run b = (b.lookup key).mapError Prog.lift :=
  Prog.run_invoke _

theorem run_check_access {source target : Context} {tclass perm : String} :
    (check_access source target tclass perm).run b =
      (b.checkAccess source target tclass perm).mapError Prog.lift :=
  Prog.run_invoke _

@[simp] theorem run_getcon_eq_ok {t : Context} : getcon.run b = .ok t ↔ b.getcon = .ok t := by
  simp [run_getcon]

@[simp] theorem run_new_eq_ok :
    KeystoreKeyBackend.new.run b = .ok () ↔ b.keystoreKeyBackendNew = .ok () := by
  simp [run_new]

@[simp] theorem run_lookup_eq_ok {key : String} {t : Context} :
    (lookup key).run b = .ok t ↔ b.lookup key = .ok t := by
  simp [run_lookup]

@[simp] theorem run_check_access_eq_ok {source target : Context} {tclass perm : String} :
    (check_access source target tclass perm).run b = .ok () ↔
      b.checkAccess source target tclass perm = .ok () := by
  simp [run_check_access]

@[simp] theorem calls_getcon : getcon.calls b = [.getcon] := Prog.calls_invoke _

@[simp] theorem calls_new : KeystoreKeyBackend.new.calls b = [.keystoreKeyBackendNew] :=
  Prog.calls_invoke _

@[simp] theorem calls_lookup {key : String} : (lookup key).calls b = [.lookup key] :=
  Prog.calls_invoke _

@[simp] theorem calls_check_access {source target : Context} {tclass perm : String} :
    (check_access source target tclass perm).calls b = [.checkAccess source target tclass perm] :=
  Prog.calls_invoke _

@[simp] theorem toBool_run_check_access {source target : Context} {tclass perm : String} :
    ((check_access source target tclass perm).run b).toBool =
      (b.checkAccess source target tclass perm).toBool := by
  simp [run_check_access]

theorem propagates_getcon : getcon.Propagates b := Prog.propagates_invoke _

theorem propagates_new : KeystoreKeyBackend.new.Propagates b := Prog.propagates_invoke _

theorem propagates_lookup {key : String} : (lookup key).Propagates b := Prog.propagates_invoke _

theorem propagates_check_access {source target : Context} {tclass perm : String} :
    (check_access source target tclass perm).Propagates b :=
  Prog.propagates_invoke _

/-- The target context of a `Domain::SELinux` or `Domain::Blob` key: its namespace looked up in a
    new `KeystoreKeyBackend`, each failure with the caller's context message. -/
def lookupNamespace (newMsg lookupMsg : String) (key : KeyDescriptor) : Prog Context := do
  KeystoreKeyBackend.new.context newMsg
  (lookup key.namespaceKey).context lookupMsg

@[simp] theorem run_lookupNamespace_eq_ok {newMsg lookupMsg : String} {key : KeyDescriptor}
    {t : Context} : (lookupNamespace newMsg lookupMsg key).run b = .ok t ↔
      b.keystoreKeyBackendNew = .ok () ∧ b.lookup key.namespaceKey = .ok t := by
  simp [lookupNamespace, Unique.exists_iff]

theorem propagates_lookupNamespace {newMsg lookupMsg : String} {key : KeyDescriptor} :
    (lookupNamespace newMsg lookupMsg key).Propagates b :=
  (propagates_new.context _).bind fun _ => propagates_lookup.context _

/-- A failed resolution is the backend's refusal of its last step, under that step's message. -/
theorem failsAs_lookupNamespace {newMsg lookupMsg : String} {key : KeyDescriptor}
    {shape : Call → Failure SelinuxError → Failure Cause} {raised : Failure Cause → Prop}
    (created : ∀ f, shape .keystoreKeyBackendNew f = (Prog.lift f).wrap newMsg)
    (found : ∀ f, shape (.lookup key.namespaceKey) f = (Prog.lift f).wrap lookupMsg) :
    (lookupNamespace newMsg lookupMsg key).FailsAs b shape raised :=
  (Prog.failsAs_invoke_context _ _ created).bind fun _ _ => Prog.failsAs_invoke_context _ _ found

/-- `check_keystore_permission`. -/
def check_keystore_permission (caller_ctx : Context) (perm : KeystorePerm) : Prog Unit := do
  let target_context ← getcon.context "check_keystore_permission: getcon failed."
  check_access caller_ctx target_context "keystore2" perm.to_selinux

/-- The `let target_context = match key.domain {...}` of `check_grant_permission`: grants are
    only made for `Domain::App` and `Domain::SELinux` keys. -/
def grant_target_context (key : KeyDescriptor) : Prog Context :=
  match key.domain with
  | .App => getcon.context "check_grant_permission: getcon failed."
  | .SELinux =>
    lookupNamespace "check_grant_permission: Domain::SELinux: Failed to create selinux keystore backend."
      "check_grant_permission: Domain::SELinux: Failed to lookup namespace" key
  | _ => (Prog.err .sys).context ("Cannot grant " ++ key.domain.debug ++ ".")

/-- `check_grant_permission`; the `for` loop over `access_vec.into_iter()` runs its body on the
    items that `next` yields, in order, up to the first error. -/
def check_grant_permission (caller_ctx : Context) (access_vec : KeyPermSet)
    (key : KeyDescriptor) : Prog Unit := do
  let target_context ← grant_target_context key
  (check_access caller_ctx target_context "keystore2_key" "grant").context
    "Grant permission is required when granting."
  if access_vec.includes (.from KeyPerm.grant) then
    (Prog.err (.selinux .perm)).context "Grant permission cannot be granted."
  else
    access_vec.into_iter.items.forM fun p =>
      (check_access caller_ctx target_context "keystore2_key" p.to_selinux).context
        "check_grant_permission: check_access failed. The caller may have tried to grant a permission that they don't possess."

/-- `check_key_permission`. -/
def check_key_permission (caller_ctx : Context) (perm : KeyPerm) (key : KeyDescriptor)
    (access_vector : Option KeyPermSet) : Prog Unit :=
  match key.domain with
  | .App => do
    let target_context ← getcon.context "check_key_permission: getcon failed."
    check_access caller_ctx target_context "keystore2_key" perm.to_selinux
  | .SELinux => do
    let target_context ← lookupNamespace
      "check_key_permission: Domain::SELinux: Failed to create selinux keystore backend."
      "check_key_permission: Domain::SELinux: Failed to lookup namespace" key
    check_access caller_ctx target_context "keystore2_key" perm.to_selinux
  | .Grant =>
    match access_vector with
    | some pv =>
      if pv.includes (.from perm) then pure ()
      else (Prog.err (.selinux .perm)).context ("\"" ++ perm.to_selinux ++ "\" not granted")
    | none =>
      (Prog.err .sys).context "Cannot check permission for Domain::Grant without access vector."
  | .KeyId => (Prog.err .sys).context "Cannot check permission for Domain::KeyId."
  | .Blob => do
    let tctx ← lookupNamespace "Domain::Blob: Failed to create selinux keystore backend."
      "Domain::Blob: Failed to lookup namespace." key
    check_access caller_ctx tctx "keystore2_key" KeyPerm.manage_blob.to_selinux
    check_access caller_ctx tctx "keystore2_key" perm.to_selinux

/-- The context that a key's domain resolves to: keystore's own context for `Domain::App`, the
    namespace's context in a new keystore key backend for `Domain::SELinux` and `Domain::Blob`. -/
def Target (b : Backend) (key : KeyDescriptor) (t : Context) : Prop :=
  match key.domain with
  | .App => b.getcon = .ok t
  | .SELinux | .Blob => b.keystoreKeyBackendNew = .ok () ∧ b.lookup key.namespaceKey = .ok t
  | .Grant | .KeyId => False

theorem target_unique {key : KeyDescriptor} {t t' : Context} (h : Target b key t)
    (h' : Target b key t') : t = t' := by
  cases hd : key.domain <;> simp only [Target, hd] at h h'
  case App => simpa [h] using h'
  case SELinux | Blob => simpa [h.2] using h'.2

end Keystore2.Check
