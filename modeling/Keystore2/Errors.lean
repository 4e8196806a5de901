import Keystore2.GrantCheck

/-!
# What a failed check reports

The root cause of a failed `check_key_permission` or `check_grant_permission` tells a denial
from everything else. It is `selinux::Error::perm()` exactly when a denial decided: the oracle
denied the last query, or the check denied by itself (an access vector without the permission,
a requested set with `grant`). It is `KsError::sys()` exactly when the key's domain is not one
the check serves. Otherwise it is the backend's refusal of the last call, root cause unchanged.
This holds whenever the backend does not answer a context resolution with permission denied.
-/

namespace Keystore2.Errors
open Keystore2.Catalog Keystore2.PermSet Keystore2.Selinux Keystore2.Check Keystore2.KeyCheck
open Keystore2.GrantCheck

variable {α : Type} {b : Backend}

/-- The last call of a run of `p` is an access query that the oracle denied. -/
def LastDenied (p : Prog α) (b : Backend) : Prop :=
  ∃ c ∈ (p.calls b).getLast?, c.isCheckAccess = true ∧ ∃ f, b.refusal c = some f ∧ f.root = .perm

/-- How the error `e` of a failed run of `p` reads, where `denies` says that the check's own
    denial decided and `unserved` that the key's domain is not served. -/
structure Classified (p : Prog α) (b : Backend) (denies unserved : Prop) (e : Failure Cause) :
    Prop where
  perm_iff : e.root = .selinux .perm ↔ LastDenied p b ∨ denies
  sys_iff : e.root = .sys ↔ unserved
  backend : e.root ≠ .selinux .perm → e.root ≠ .sys →
    ∃ f, p.lastRefusal b = some f ∧ e.root = .selinux f.root

/-- Where only access checks can be denied, the run's last call was a denied query exactly when
    the backend refused it with permission denied. -/
theorem lastDenied_iff {p : Prog α} (resolution : b.ResolutionNotDenied) :
    LastDenied p b ↔ ∃ f, p.lastRefusal b = some f ∧ f.root = .perm := by
  simp only [LastDenied, Prog.lastRefusal, Option.mem_def, Option.bind_eq_some]
  constructor
  · rintro ⟨c, last, -, f, refused, denied⟩
    exact ⟨f, ⟨c, last, refused⟩, denied⟩
  · rintro ⟨f, ⟨c, last, refused⟩, denied⟩
    refine ⟨c, last, ?_, f, refused, denied⟩
    by_contra resolving
    exact resolution c f (by simpa using resolving) refused denied

section
variable {p : Prog α} {denies unserved : Prop} {e : Failure Cause}

/-- An error that is the backend's refusal of the last call. -/
theorem Classified.of_refusal {f : Failure SelinuxError} (resolution : b.ResolutionNotDenied)
    (undenied : ¬denies) (served : ¬unserved) (last : p.lastRefusal b = some f)
    (root : e.root = .selinux f.root) : Classified p b denies unserved e where
  perm_iff := by simp [lastDenied_iff resolution, last, root, undenied]
  sys_iff := by simp [root, served]
  backend _ _ := ⟨f, last, root⟩

/-- An error raised by the check's own denial. -/
theorem Classified.of_denial (denied : denies) (served : ¬unserved)
    (root : e.root = .selinux .perm) : Classified p b denies unserved e where
  perm_iff := by simp [root, denied]
  sys_iff := by simp [root, served]
  backend perm := absurd root perm

/-- An error raised, before any call, for a domain that is not served. -/
theorem Classified.of_unserved (undenied : ¬denies) (refused : unserved) (root : e.root = .sys)
    (none_made : p.calls b = []) : Classified p b denies unserved e where
  perm_iff := by simp [LastDenied, root, none_made, undenied]
  sys_iff := by simp [root, refused]
  backend _ sys := absurd root sys

end

variable (c : Context) (perm : KeyPerm) (S : KeyPermSet) (k : KeyDescriptor)
  (av : Option KeyPermSet) {e : Failure Cause}

/-! ## The key check -/

/-- On the domains with a target context, every error of the key check is the backend's. -/
theorem propagates_check_key_permission
    (targeted : k.domain = .App ∨ k.domain = .SELinux ∨ k.domain = .Blob) :
    (check_key_permission c perm k av).Propagates b := by
  rcases targeted with hd | hd | hd <;> simp only [check_key_permission, hd]
  · exact (propagates_getcon.context _).bind fun _ => propagates_check_access
  · exact propagates_lookupNamespace.bind fun _ => propagates_check_access
  · exact propagates_lookupNamespace.bind fun _ => propagates_check_access.bind fun _ =>
      propagates_check_access

/-- Every error of the key check, read by its source. -/
theorem check_key_permission_classified (resolution : b.ResolutionNotDenied)
    (failed : (check_key_permission c perm k av).run b = .error e) :
    Classified (check_key_permission c perm k av) b
      (k.domain = .Grant ∧ ∃ s, av = some s ∧ s.includes (.from perm) = false)
      (k.domain = .KeyId ∨ k.domain = .Grant ∧ av = none) e := by
  cases hd : k.domain
  case App | SELinux | Blob =>
    obtain ⟨f, last, root⟩ := propagates_check_key_permission c perm k av (by simp [hd]) e failed
    exact .of_refusal resolution (by simp) (by simp) last root
  case KeyId =>
    simp [check_key_permission, hd, Prog.run_context] at failed
    exact .of_unserved (by simp) (by simp) (by simp [← failed, Failure.wrap])
      (by simp [check_key_permission, hd])
  case Grant =>
    rw [run_check_key_permission_grant c perm av b hd] at failed
    cases av with
    | none =>
      cases failed
      exact .of_unserved (by simp) (by simp) rfl (by simp [check_key_permission, hd])
    | some s =>
      cases included : s.includes (.from perm) <;> simp only [included] at failed
      · cases failed
        exact .of_denial ⟨rfl, s, rfl, included⟩ (by simp) rfl
      · cases failed

/-! ## The grant check -/

/-- A served grant check of a vector without `grant` makes only backend errors. -/
theorem propagates_check_grant_permission (served : k.domain = .App ∨ k.domain = .SELinux)
    (fresh : S.includes (.from KeyPerm.grant) = false) :
    (check_grant_permission c S k).Propagates b := by
  simp only [check_grant_permission, fresh, Bool.false_eq_true, ite_false]
  exact (propagates_grant_target_context k b served).bind fun _ =>
    (propagates_check_access.context _).bind fun _ =>
      Prog.propagates_forM _ fun _ => propagates_check_access.context _

/-- Every error of the grant check, read by its source: the domain, the target's resolution, the
    `grant` query, the check's own refusal of `grant`, or the loop. -/
theorem check_grant_permission_classified (resolution : b.ResolutionNotDenied)
    (failed : (check_grant_permission c S k).run b = .error e) :
    Classified (check_grant_permission c S k) b
      ((k.domain = .App ∨ k.domain = .SELinux) ∧ S.includes (.from KeyPerm.grant) = true ∧
        ∃ t, Target b k t ∧ b.checkAccess c t "keystore2_key" "grant" = .ok ())
      (k.domain ≠ .App ∧ k.domain ≠ .SELinux) e := by
  by_cases served : k.domain = .App ∨ k.domain = .SELinux
  case neg =>
    have refused : grant_target_context k =
        (Prog.err .sys).context ("Cannot grant " ++ k.domain.debug ++ ".") := by
      cases hd : k.domain <;> simp [hd] at served <;> simp [grant_target_context, hd]
    simp [check_grant_permission, refused, Prog.run_bind, Prog.run_context] at failed
    exact .of_unserved (fun denied => served denied.1) (not_or.mp served)
      (by simp [← failed, Failure.wrap]) (by simp [check_grant_permission, refused, Prog.run_context])
  have served' : ¬(k.domain ≠ .App ∧ k.domain ≠ .SELinux) := fun ⟨app, selinux⟩ =>
    served.elim app selinux
  cases fresh : S.includes (.from KeyPerm.grant)
  · obtain ⟨f, last, root⟩ := propagates_check_grant_permission c S k served fresh e failed
    exact .of_refusal resolution (by simp) served' last root
  cases resolved : (grant_target_context k).run b with
  | error e₀ =>
    have : e₀ = e := by simpa [check_grant_permission, Prog.run_bind, resolved] using failed
    subst this
    obtain ⟨f, last, root⟩ := propagates_grant_target_context k b served e₀ resolved
    refine .of_refusal resolution ?_ served' ?_ root
    · rintro ⟨-, -, t, target, -⟩
      simp [(run_grant_target_context_eq_ok k b served).mpr target] at resolved
    · simpa [check_grant_permission, Prog.lastRefusal, resolved] using last
  | ok t =>
    have target := (run_grant_target_context_eq_ok k b served).mp resolved
    cases granting : b.checkAccess c t "keystore2_key" "grant" with
    | error f =>
      simp [check_grant_permission, Prog.run_bind, resolved, Prog.run_context, run_check_access,
        granting] at failed
      refine .of_refusal resolution ?_ served' (f := f) ?_ (by simp [← failed, Failure.wrap, Prog.lift])
      · rintro ⟨-, -, t', target', allowed⟩
        rw [target_unique target target', allowed] at granting
        cases granting
      · simp [check_grant_permission, Prog.lastRefusal, resolved, Prog.run_context, run_check_access,
          granting, Backend.refusal]
    | ok u =>
      simp [check_grant_permission, Prog.run_bind, resolved, Prog.run_context, run_check_access,
        granting, fresh] at failed
      exact .of_denial ⟨served, rfl, t, target, granting⟩ served' (by simp [← failed, Failure.wrap])

/-! ## Both checks -/

theorem check_error_root_cause (b : Backend) (resolution : b.ResolutionNotDenied) :
    (∀ c perm k av e, (check_key_permission c perm k av).run b = .error e →
      Classified (check_key_permission c perm k av) b
        (k.domain = .Grant ∧ ∃ s, av = some s ∧ s.includes (.from perm) = false)
        (k.domain = .KeyId ∨ k.domain = .Grant ∧ av = none) e) ∧
    (∀ c S k e, (check_grant_permission c S k).run b = .error e →
      Classified (check_grant_permission c S k) b
        ((k.domain = .App ∨ k.domain = .SELinux) ∧ S.includes (.from KeyPerm.grant) = true ∧
          ∃ t, Target b k t ∧ b.checkAccess c t "keystore2_key" "grant" = .ok ())
        (k.domain ≠ .App ∧ k.domain ≠ .SELinux) e) :=
  ⟨fun c perm k av _ => check_key_permission_classified c perm k av resolution,
    fun c S k _ => check_grant_permission_classified c S k resolution⟩

theorem check_error_root_cause_deny_all :
    (Backend.ofPolicy ⟨"u:r:keystore:s0"⟩ fun _ _ _ _ => false).ResolutionNotDenied ∧
    (∀ c perm k av e, (check_key_permission c perm k av).run
        (.ofPolicy ⟨"u:r:keystore:s0"⟩ fun _ _ _ _ => false) = .error e →
      Classified (check_key_permission c perm k av)
        (.ofPolicy ⟨"u:r:keystore:s0"⟩ fun _ _ _ _ => false)
        (k.domain = .Grant ∧ ∃ s, av = some s ∧ s.includes (.from perm) = false)
        (k.domain = .KeyId ∨ k.domain = .Grant ∧ av = none) e) ∧
    (∀ c S k e, (check_grant_permission c S k).run
        (.ofPolicy ⟨"u:r:keystore:s0"⟩ fun _ _ _ _ => false) = .error e →
      Classified (check_grant_permission c S k) (.ofPolicy ⟨"u:r:keystore:s0"⟩ fun _ _ _ _ => false)
        ((k.domain = .App ∨ k.domain = .SELinux) ∧ S.includes (.from KeyPerm.grant) = true ∧
          ∃ t, Target (.ofPolicy ⟨"u:r:keystore:s0"⟩ fun _ _ _ _ => false) k t ∧
            (Backend.ofPolicy ⟨"u:r:keystore:s0"⟩ fun _ _ _ _ => false).checkAccess c t
              "keystore2_key" "grant" = .ok ())
        (k.domain ≠ .App ∧ k.domain ≠ .SELinux) e) :=
  have resolution := Backend.resolutionNotDenied_ofPolicy ⟨"u:r:keystore:s0"⟩ fun _ _ _ _ => false
  ⟨resolution, check_error_root_cause _ resolution⟩

/-! ## The whole error

An error carries more than its root cause: each `.context(msg)` that it passes puts a message on
it. Every error of a check is the backend's refusal of the run's last call, root cause and
messages kept, under the messages that the check puts on a failure of that call, or one of the
errors that the check raises itself.
-/

/-- The backend's refusal `f` of call `c`, under the messages `context c`. -/
def under (context : Call → List String) (c : Call) (f : Failure SelinuxError) : Failure Cause :=
  ⟨.selinux f.root, context c ++ f.context⟩

section
variable {context : Call → List String} {c : Call}

theorem under_of_nil (none_put : context c = []) (f : Failure SelinuxError) :
    under context c f = Prog.lift f := by
  simp [under, none_put, Prog.lift]

theorem under_of_single {msg : String} (put : context c = [msg]) (f : Failure SelinuxError) :
    under context c f = (Prog.lift f).wrap msg := by
  simp [under, put, Prog.lift, Failure.wrap]

end

/-- The messages of `check_keystore_permission`: one on a failed `getcon`. -/
def keystoreContext : Call → List String
  | .getcon => ["check_keystore_permission: getcon failed."]
  | _ => []

/-- Every error of `check_keystore_permission` is the backend's. -/
theorem check_keystore_permission_error (perm : KeystorePerm) :
    (check_keystore_permission c perm).FailsAs b (under keystoreContext) fun _ => False :=
  (Prog.failsAs_invoke_context _ _ (under_of_single rfl)).bind fun _ _ =>
    Prog.failsAs_invoke _ (under_of_nil rfl)

/-- The messages of `check_key_permission` on a key of domain `d`: one on each failed step of the
    target's resolution, none on a refused query. -/
def keyContext : Domain → Call → List String
  | .App, .getcon => ["check_key_permission: getcon failed."]
  | .SELinux, .keystoreKeyBackendNew =>
    ["check_key_permission: Domain::SELinux: Failed to create selinux keystore backend."]
  | .SELinux, .lookup _ => ["check_key_permission: Domain::SELinux: Failed to lookup namespace"]
  | .Blob, .keystoreKeyBackendNew => ["Domain::Blob: Failed to create selinux keystore backend."]
  | .Blob, .lookup _ => ["Domain::Blob: Failed to lookup namespace."]
  | _, _ => []

/-- The errors that `check_key_permission` raises itself: the denial by the access vector, which
    names the permission, and the refusals of the domains it does not serve. -/
def KeyRaised (perm : KeyPerm) (e : Failure Cause) : Prop :=
  e = ⟨.selinux .perm, ["\"" ++ perm.to_selinux ++ "\" not granted"]⟩ ∨
  e = ⟨.sys, ["Cannot check permission for Domain::Grant without access vector."]⟩ ∨
  e = ⟨.sys, ["Cannot check permission for Domain::KeyId."]⟩

theorem check_key_permission_error :
    (check_key_permission c perm k av).FailsAs b (under (keyContext k.domain)) (KeyRaised perm) := by
  cases hd : k.domain <;> simp only [check_key_permission, hd]
  case App =>
    exact (Prog.failsAs_invoke_context _ _ (under_of_single rfl)).bind fun _ _ =>
      Prog.failsAs_invoke _ (under_of_nil rfl)
  case SELinux =>
    exact (failsAs_lookupNamespace (under_of_single rfl) (under_of_single rfl)).bind fun _ _ =>
      Prog.failsAs_invoke _ (under_of_nil rfl)
  case Grant =>
    cases av with
    | none => exact Prog.failsAs_err_context _ _ (.inr (.inl rfl))
    | some s =>
      dsimp only
      split
      exacts [Prog.failsAs_pure (), Prog.failsAs_err_context _ _ (.inl rfl)]
  case KeyId => exact Prog.failsAs_err_context _ _ (.inr (.inr rfl))
  case Blob =>
    exact (failsAs_lookupNamespace (under_of_single rfl) (under_of_single rfl)).bind fun _ _ =>
      (Prog.failsAs_invoke _ (under_of_nil rfl)).bind fun _ _ => Prog.failsAs_invoke _ (under_of_nil rfl)

/-- The messages of `check_grant_permission`: one on each failed step of the target's
    resolution, one on the refused `grant` query and one on every refused query of the loop. -/
def grantContext : Call → List String
  | .getcon => ["check_grant_permission: getcon failed."]
  | .keystoreKeyBackendNew =>
    ["check_grant_permission: Domain::SELinux: Failed to create selinux keystore backend."]
  | .lookup _ => ["check_grant_permission: Domain::SELinux: Failed to lookup namespace"]
  | .checkAccess _ _ _ perm =>
    [if perm = "grant" then "Grant permission is required when granting."
      else "check_grant_permission: check_access failed. The caller may have tried to grant a permission that they don't possess."]

/-- The errors that `check_grant_permission` raises itself: the refusal to grant `grant`, and the
    refusal of a domain it does not serve, which names the domain. -/
def GrantRaised (k : KeyDescriptor) (e : Failure Cause) : Prop :=
  e = ⟨.selinux .perm, ["Grant permission cannot be granted."]⟩ ∨
  e = ⟨.sys, ["Cannot grant " ++ k.domain.debug ++ "."]⟩

theorem failsAs_grant_target_context :
    (grant_target_context k).FailsAs b (under grantContext) (GrantRaised k) := by
  unfold grant_target_context
  split
  · exact Prog.failsAs_invoke_context _ _ (under_of_single rfl)
  · exact failsAs_lookupNamespace (under_of_single rfl) (under_of_single rfl)
  · exact Prog.failsAs_err_context _ _ (.inr rfl)

/-- A query of the loop is for a permission the vector includes, so never for `grant` when the
    loop runs: its refusal gets the loop's message. -/
theorem check_grant_permission_error :
    (check_grant_permission c S k).FailsAs b (under grantContext) (GrantRaised k) := by
  unfold check_grant_permission
  refine (failsAs_grant_target_context k).bind fun t _ =>
    (Prog.failsAs_invoke_context _ _ (under_of_single (by simp [grantContext]))).bind fun _ _ => ?_
  split
  case isTrue => exact Prog.failsAs_err_context _ _ (.inl rfl)
  case isFalse fresh =>
    refine Prog.failsAs_forM _ fun p listed => Prog.failsAs_invoke_context _ _ (under_of_single ?_)
    have other : p.to_selinux ≠ "grant" := fun named => by
      rw [KeyPerm.eq_grant_of_to_selinux named] at listed
      exact fresh (Iter.includes_of_mem_items listed (by decide))
    simp [grantContext, other]

end Keystore2.Errors
