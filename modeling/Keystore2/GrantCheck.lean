import Keystore2.KeyCheck

/-!
# The grant check

`check_grant_permission` resolves the key's target as `check_key_permission` does, asks for the
`grant` permission, refuses any vector that includes `grant`, and then asks for every permission
that iterating the vector yields. It passes exactly when the vector lacks `grant` and the
granter passes the key check of `grant` and of every yielded permission, so a grantee holding the
vector can exercise only what the granter holds.
-/

namespace Keystore2.GrantCheck
open Keystore2.Catalog Keystore2.PermSet Keystore2.Iter Keystore2.Selinux Keystore2.Check
open Keystore2.KeyCheck

variable (c : Context) (S : KeyPermSet) (k : KeyDescriptor) (b : Backend)

/-- On a served domain, the grant check's target is the key's target. -/
theorem run_grant_target_context_eq_ok {t : Context}
    (served : k.domain = .App ∨ k.domain = .SELinux) :
    (grant_target_context k).run b = .ok t ↔ Target b k t := by
  rcases served with hd | hd <;> simp [grant_target_context, Target, hd]

theorem propagates_grant_target_context (served : k.domain = .App ∨ k.domain = .SELinux) :
    (grant_target_context k).Propagates b := by
  rcases served with hd | hd <;> simp only [grant_target_context, hd]
  exacts [propagates_getcon.context _, propagates_lookupNamespace]

/-- Resolving the grant check's target makes no access check. -/
theorem filter_calls_grant_target_context :
    ((grant_target_context k).calls b).filter Call.isCheckAccess = [] := by
  cases hd : k.domain <;> cases hn : b.keystoreKeyBackendNew <;>
    simp [grant_target_context, lookupNamespace, hd, hn, Prog.run_context, run_new,
      Call.isCheckAccess, List.filter_append]

/-- When the grant check passes, in terms of the key's target. -/
theorem run_check_grant_permission_eq_ok :
    (check_grant_permission c S k).run b = .ok () ↔
      (k.domain = .App ∨ k.domain = .SELinux) ∧ S.includes (.from KeyPerm.grant) = false ∧
      ∃ t, Target b k t ∧ b.checkAccess c t "keystore2_key" "grant" = .ok () ∧
        ∀ p ∈ S.into_iter.items, b.checkAccess c t "keystore2_key" p.to_selinux = .ok () := by
  cases hS : S.includes (.from KeyPerm.grant) <;> cases hd : k.domain <;>
    simp [check_grant_permission, grant_target_context, Target, hd, hS, Prog.run_forM_eq_ok,
      Unique.exists_iff, and_assoc]

theorem check_grant_permission_iff_key_checks :
    (check_grant_permission c S k).run b = .ok () ↔
      (k.domain = .App ∨ k.domain = .SELinux) ∧ S.includes (.from KeyPerm.grant) = false ∧
      (check_key_permission c KeyPerm.grant k none).run b = .ok () ∧
      ∀ p ∈ S.into_iter.items, (check_key_permission c p k none).run b = .ok () := by
  rw [run_check_grant_permission_eq_ok]
  constructor
  · rintro ⟨served, fresh, t, target, grant, each⟩
    exact ⟨served, fresh, (run_check_key_permission_served c _ none b served).mpr ⟨t, target, grant⟩,
      fun p listed => (run_check_key_permission_served c p none b served).mpr ⟨t, target, each p listed⟩⟩
  · rintro ⟨served, fresh, grant, each⟩
    obtain ⟨t, target, allowed⟩ := (run_check_key_permission_served c _ none b served).mp grant
    refine ⟨served, fresh, t, target, allowed, fun p listed => ?_⟩
    obtain ⟨t', target', allowed'⟩ := (run_check_key_permission_served c p none b served).mp (each p listed)
    rwa [target_unique target target']

/-! ## Delegation -/

theorem grant_never_escalates (c' : Context) (g : KeyDescriptor) (p : KeyPerm) (b' : Backend)
    (granted : (check_grant_permission c S k).run b = .ok ())
    (exercised : (check_key_permission c' p g (some S)).run b' = .ok ())
    (grantDomain : g.domain = .Grant) (real : p ≠ KeyPerm.none) :
    (check_key_permission c p k none).run b = .ok () := by
  obtain ⟨served, -, t, target, -, each⟩ := (run_check_grant_permission_eq_ok c S k b).mp granted
  have included : S.includes (.from p) = true := by
    by_contra excluded
    simp [run_check_key_permission_grant c' p (some S) b' grantDomain, excluded] at exercised
  exact (run_check_key_permission_served c p none b served).mpr
    ⟨t, target, each p (mem_items_of_includes included real)⟩

/-- Granting `use` under a policy that denies `delete`, which the vector leaves out. -/
theorem grant_never_escalates_use :
    (check_grant_permission ⟨"u:r:su:s0"⟩ (key_perm_set [⟨.Use⟩]) ⟨.App, 0⟩).run
      (.ofPolicy ⟨"u:r:keystore:s0"⟩ fun _ _ _ perm => perm != "delete") = .ok () ∧
    (check_key_permission ⟨"u:r:shell:s0"⟩ ⟨.Use⟩ ⟨.Grant, 0⟩ (some (key_perm_set [⟨.Use⟩]))).run
      (.ofPolicy ⟨"u:r:keystore:s0"⟩ fun _ _ _ _ => false) = .ok () ∧
    (⟨.Grant, 0⟩ : KeyDescriptor).domain = .Grant ∧ (⟨.Use⟩ : KeyPerm) ≠ KeyPerm.none ∧
    (check_key_permission ⟨"u:r:su:s0"⟩ ⟨.Use⟩ ⟨.App, 0⟩ none).run
      (.ofPolicy ⟨"u:r:keystore:s0"⟩ fun _ _ _ perm => perm != "delete") = .ok () := by
  have granted : (check_grant_permission ⟨"u:r:su:s0"⟩ (key_perm_set [⟨.Use⟩]) ⟨.App, 0⟩).run
      (.ofPolicy ⟨"u:r:keystore:s0"⟩ fun _ _ _ perm => perm != "delete") = .ok () := by
    refine (run_check_grant_permission_eq_ok _ _ _ _).mpr
      ⟨.inl rfl, rfl, ⟨"u:r:keystore:s0"⟩, rfl, rfl, fun p listed => ?_⟩
    obtain ⟨i, -, set, rfl⟩ := mem_items.mp listed
    have use : i = 9 := by
      simp [KeyPermission.bit] at set
      omega
    subst use
    rfl
  have exercised : (check_key_permission ⟨"u:r:shell:s0"⟩ ⟨.Use⟩ ⟨.Grant, 0⟩
      (some (key_perm_set [⟨.Use⟩]))).run (.ofPolicy ⟨"u:r:keystore:s0"⟩ fun _ _ _ _ => false) =
      .ok () := rfl
  exact ⟨granted, exercised, rfl, by decide,
    grant_never_escalates _ _ _ _ _ _ _ _ granted exercised rfl (by decide)⟩

/-- A grant that passes passes for every vector the granted one includes. -/
theorem check_grant_permission_subset (T : KeyPermSet)
    (granted : (check_grant_permission c S k).run b = .ok ()) (sub : S.includes T = true) :
    (check_grant_permission c T k).run b = .ok () := by
  obtain ⟨served, fresh, t, target, grant, each⟩ := (run_check_grant_permission_eq_ok c S k b).mp granted
  refine (run_check_grant_permission_eq_ok c T k b).mpr ⟨served, ?_, t, target, grant, fun p listed => ?_⟩
  · cases hT : T.includes (.from KeyPerm.grant)
    · rfl
    · simp [KeyPermSet.includes_trans sub hT] at fresh
  · obtain ⟨i, small, set, rfl⟩ := mem_items.mp listed
    exact each _ (mem_items.mpr ⟨i, small, (KeyPermSet.includes_iff S T).mp sub i set, rfl⟩)

theorem check_grant_permission_subset_use :
    (check_grant_permission ⟨"u:r:su:s0"⟩ (key_perm_set [⟨.Use⟩, ⟨.Delete⟩]) ⟨.App, 0⟩).run
      (.ofPolicy ⟨"u:r:keystore:s0"⟩ fun _ _ _ _ => true) = .ok () ∧
    (key_perm_set [⟨.Use⟩, ⟨.Delete⟩]).includes (key_perm_set [⟨.Use⟩]) = true ∧
    (check_grant_permission ⟨"u:r:su:s0"⟩ (key_perm_set [⟨.Use⟩]) ⟨.App, 0⟩).run
      (.ofPolicy ⟨"u:r:keystore:s0"⟩ fun _ _ _ _ => true) = .ok () := by
  have granted : (check_grant_permission ⟨"u:r:su:s0"⟩ (key_perm_set [⟨.Use⟩, ⟨.Delete⟩])
      ⟨.App, 0⟩).run (.ofPolicy ⟨"u:r:keystore:s0"⟩ fun _ _ _ _ => true) = .ok () :=
    (run_check_grant_permission_eq_ok _ _ _ _).mpr
      ⟨.inl rfl, rfl, ⟨"u:r:keystore:s0"⟩, rfl, rfl, fun _ _ => rfl⟩
  exact ⟨granted, by decide, check_grant_permission_subset _ _ _ _ _ granted (by decide)⟩

/-- A vector with a bit above bit 10 is iterated as `none` there, so it is never granted under
    an oracle that does not know `none`. -/
theorem check_grant_permission_unknown_bit {i : Nat} (high : 11 ≤ i) (small : i < 32)
    (set : S.val.getLsbD i = true)
    (unknown : ∀ s t tclass, b.checkAccess s t tclass "none" ≠ .ok ()) :
    (check_grant_permission c S k).run b ≠ .ok () := fun granted => by
  obtain ⟨-, -, t, -, -, each⟩ := (run_check_grant_permission_eq_ok c S k b).mp granted
  exact unknown c t _ (each _ (mem_items.mpr ⟨i, small, set, KeyPerm.from_twoPow_high high small⟩))

theorem check_grant_permission_unknown_bit_eleven :
    11 ≤ 11 ∧ 11 < 32 ∧ (⟨0x800#32⟩ : KeyPermSet).val.getLsbD 11 = true ∧
    (∀ s t tclass, (Backend.ofPolicy ⟨"u:r:keystore:s0"⟩ fun _ _ _ perm => perm != "none").checkAccess
      s t tclass "none" ≠ .ok ()) ∧
    (check_grant_permission ⟨"u:r:su:s0"⟩ ⟨0x800#32⟩ ⟨.App, 0⟩).run
      (.ofPolicy ⟨"u:r:keystore:s0"⟩ fun _ _ _ perm => perm != "none") ≠ .ok () := by
  have unknown : ∀ s t tclass, (Backend.ofPolicy ⟨"u:r:keystore:s0"⟩
      fun _ _ _ perm => perm != "none").checkAccess s t tclass "none" ≠ .ok () := by
    simp [Backend.ofPolicy]
  exact ⟨by decide, by decide, by decide, unknown,
    check_grant_permission_unknown_bit _ _ _ _ (i := 11) (by decide) (by decide) (by decide) unknown⟩

/-! ## The queries -/

theorem check_grant_permission_query_order (t : Context)
    (served : k.domain = .App ∨ k.domain = .SELinux) (resolves : Target b k t) :
    ((check_grant_permission c S k).calls b).filter Call.isCheckAccess =
      .checkAccess c t "keystore2_key" "grant" ::
        if (b.checkAccess c t "keystore2_key" "grant").toBool ∧ S.includes (.from KeyPerm.grant) = false then
          let names := ((List.range 32).filter (S.val.getLsbD ·)).map fun k =>
            (KeyPerm.from (1#32 <<< k)).to_selinux
          let allowed := fun name => (b.checkAccess c t "keystore2_key" name).toBool
          (names.take ((names.takeWhile allowed).length + 1)).map (.checkAccess c t "keystore2_key")
        else [] := by
  have loop := Prog.calls_forM (b := b) S.into_iter.items
    (fun p => (check_access c t "keystore2_key" p.to_selinux).context
      "check_grant_permission: check_access failed. The caller may have tried to grant a permission that they don't possess.")
    (fun p => .checkAccess c t "keystore2_key" p.to_selinux) (fun _ => by simp) (fun _ => by simp)
  cases hg : b.checkAccess c t "keystore2_key" "grant" <;> cases hS : S.includes (.from KeyPerm.grant) <;>
    simp [check_grant_permission, List.filter_append, filter_calls_grant_target_context,
      (run_grant_target_context_eq_ok k b served).mpr resolves, Prog.run_context, run_check_access, hg, hS, loop,
      Except.toBool] <;>
    simp [into_iter_items, Call.isCheckAccess, List.takeWhile_map, List.map_take, List.filter_map,
      Function.comp_def]
  intro a mem
  obtain ⟨x, -, rfl⟩ := List.mem_map.mp (List.mem_of_mem_take mem)
  rfl

/-- Granting `use` and `delete` where the oracle allows everything but `delete`: `grant`, then
    `delete` (code 1) before `use` (code 0x100), and nothing after the denied `delete`. -/
theorem check_grant_permission_query_order_denied :
    ((⟨.App, 0⟩ : KeyDescriptor).domain = .App ∨ (⟨.App, 0⟩ : KeyDescriptor).domain = .SELinux) ∧
    Target (.ofPolicy ⟨"u:r:keystore:s0"⟩ fun _ _ _ perm => perm != "delete") ⟨.App, 0⟩
      ⟨"u:r:keystore:s0"⟩ ∧
    ((check_grant_permission ⟨"u:r:su:s0"⟩ (key_perm_set [⟨.Use⟩, ⟨.Delete⟩]) ⟨.App, 0⟩).calls
      (.ofPolicy ⟨"u:r:keystore:s0"⟩ fun _ _ _ perm => perm != "delete")).filter Call.isCheckAccess =
      [.checkAccess ⟨"u:r:su:s0"⟩ ⟨"u:r:keystore:s0"⟩ "keystore2_key" "grant",
        .checkAccess ⟨"u:r:su:s0"⟩ ⟨"u:r:keystore:s0"⟩ "keystore2_key" "delete"] :=
  ⟨.inl rfl, rfl, by
    rw [check_grant_permission_query_order ⟨"u:r:su:s0"⟩ (key_perm_set [⟨.Use⟩, ⟨.Delete⟩]) ⟨.App, 0⟩
      (.ofPolicy ⟨"u:r:keystore:s0"⟩ fun _ _ _ perm => perm != "delete") ⟨"u:r:keystore:s0"⟩
      (.inl rfl) rfl]
    decide⟩

/-! ## A more permissive backend -/

theorem Target.of_succeedsWhere {b b' : Backend} {t : Context} (more : b'.SucceedsWhere b)
    (target : Target b k t) : Target b' k t := by
  cases hd : k.domain <;> simp only [Target, hd] at target ⊢
  case App => exact more .getcon t target
  case SELinux | Blob =>
    exact ⟨more .keystoreKeyBackendNew () target.1, more (.lookup _) t target.2⟩

/-- The checks are monotone in the backend: one that resolves the same contexts and allows at
    least what another allows never turns an `Ok` of any of the three checks into an error. -/
theorem checks_monotone {b b' : Backend} (more : b'.SucceedsWhere b) :
    (∀ c p, (check_keystore_permission c p).run b = .ok () →
      (check_keystore_permission c p).run b' = .ok ()) ∧
    (∀ c perm k av, (check_key_permission c perm k av).run b = .ok () →
      (check_key_permission c perm k av).run b' = .ok ()) ∧
    (∀ c S k, (check_grant_permission c S k).run b = .ok () →
      (check_grant_permission c S k).run b' = .ok ()) := by
  have allows := fun {s t tclass perm} => more (.checkAccess s t tclass perm) ()
  refine ⟨fun c p passed => ?_, fun c perm k av passed => ?_, fun c S k passed => ?_⟩
  · simp only [check_keystore_permission, Prog.run_bind_eq_ok, Prog.run_context_eq_ok,
      run_getcon_eq_ok, run_check_access_eq_ok] at passed ⊢
    obtain ⟨t, own, allowed⟩ := passed
    exact ⟨t, more .getcon t own, allows allowed⟩
  · rw [run_check_key_permission_eq_ok] at passed ⊢
    rcases passed with ⟨app, t, own, allowed⟩ | ⟨selinux, created, t, found, allowed⟩ |
      ⟨blob, created, t, found, blobAllowed, allowed⟩ | grant
    · exact .inl ⟨app, t, more .getcon t own, allows allowed⟩
    · exact .inr (.inl ⟨selinux, more .keystoreKeyBackendNew () created, t,
        more (.lookup _) t found, allows allowed⟩)
    · exact .inr (.inr (.inl ⟨blob, more .keystoreKeyBackendNew () created, t,
        more (.lookup _) t found, allows blobAllowed, allows allowed⟩))
    · exact .inr (.inr (.inr grant))
  · rw [run_check_grant_permission_eq_ok] at passed ⊢
    obtain ⟨served, fresh, t, target, grant, each⟩ := passed
    exact ⟨served, fresh, t, Target.of_succeedsWhere k more target, allows grant,
      fun p listed => allows (each p listed)⟩

theorem checks_monotone_use :
    (Backend.ofPolicy ⟨"u:r:keystore:s0"⟩ fun _ _ _ _ => true).SucceedsWhere
      (.ofPolicy ⟨"u:r:keystore:s0"⟩ fun _ _ _ perm => perm == "use") ∧
    (∀ c p, (check_keystore_permission c p).run
        (.ofPolicy ⟨"u:r:keystore:s0"⟩ fun _ _ _ perm => perm == "use") = .ok () →
      (check_keystore_permission c p).run (.ofPolicy ⟨"u:r:keystore:s0"⟩ fun _ _ _ _ => true) = .ok ()) ∧
    (∀ c perm k av, (check_key_permission c perm k av).run
        (.ofPolicy ⟨"u:r:keystore:s0"⟩ fun _ _ _ perm => perm == "use") = .ok () →
      (check_key_permission c perm k av).run (.ofPolicy ⟨"u:r:keystore:s0"⟩ fun _ _ _ _ => true) = .ok ()) ∧
    (∀ c S k, (check_grant_permission c S k).run
        (.ofPolicy ⟨"u:r:keystore:s0"⟩ fun _ _ _ perm => perm == "use") = .ok () →
      (check_grant_permission c S k).run (.ofPolicy ⟨"u:r:keystore:s0"⟩ fun _ _ _ _ => true) = .ok ()) :=
  have more := Backend.succeedsWhere_ofPolicy ⟨"u:r:keystore:s0"⟩ fun _ _ _ _ _ => rfl
  ⟨more, checks_monotone more⟩

end Keystore2.GrantCheck
