import Keystore2.Catalog

/-!
# The expansion of `implement_permission!`

Before it generates code, `implement_permission!` rewrites its elements: the `@replace_use`
rules walk the list and give each element the identifier of its constructor function, which is
its selinux name, except that the keyword `use` becomes `use_`. The `@end` rule then generates
`From<i32>`, `to_selinux`, one constructor function per element and a test per constructor.
A `PermissionTable` is an invocation; this module models the rewrite and what `@end` generates
from its output. The rewrite reaches only the constructors' identifiers: the generated
`From<i32>` and `to_selinux` are those of the table, so `to_selinux` still returns `"use"`
(`expansion_keeps_table`). For every invocation whose values are its variants' discriminants and
pairwise distinct, the generated tests pass, decoding inverts `as i32`, and `to_selinux` returns
the listed names (`implement_permission_correct`).
-/

namespace Keystore2.Catalog

variable {τ : Type}

/-- The `@replace_use` rules, `out` being the list built so far: the first rule ends the
    recursion, the second gives the selinux name `use` the identifier `use_`, and the third
    keeps any other name as the identifier. -/
def replace_use (out : List (τ × BitVec 32 × String × String)) :
    List (τ × BitVec 32 × String) → List (τ × BitVec 32 × String × String)
  | [] => out
  | (name, val, "use") :: rest => replace_use (out ++ [(name, val, "use_", "use")]) rest
  | (name, val, str) :: rest => replace_use (out ++ [(name, val, str, str)]) rest

/-- The identifier that `@replace_use` gives a selinux name. -/
def identifier (selinuxName : String) : String :=
  if selinuxName = "use" then "use_" else selinuxName

/-- The rewrite appends each element, in order, with the identifier of its selinux name. -/
theorem replace_use_eq (out : List (τ × BitVec 32 × String × String))
    (elements : List (τ × BitVec 32 × String)) :
    replace_use out elements =
      out ++ elements.map fun e => (e.1, e.2.1, identifier e.2.2, e.2.2) := by
  induction elements generalizing out with
  | nil => simp [replace_use]
  | cons e rest ih =>
    obtain ⟨name, val, str⟩ := e
    by_cases keyword : str = "use"
    · subst keyword
      simp [replace_use, ih, identifier]
    · rw [replace_use.eq_3 _ _ _ _ _ keyword, ih]
      simp [identifier, keyword]

def PermissionTable.processed (t : PermissionTable τ) : List (τ × BitVec 32 × String × String) :=
  replace_use [] t.elements

/-- The `From<i32>` that `@end` generates, its arms read off the processed elements. -/
def PermissionTable.generatedFrom (t : PermissionTable τ) (p : BitVec 32) : τ :=
  if p = t.default.2.1 then t.default.1
  else match t.processed.find? (fun e => e.2.1 = p) with
    | some e => e.1
    | none => t.default.1

/-- The `to_selinux` that `@end` generates, its arms read off the processed elements. -/
def PermissionTable.generatedToSelinux [DecidableEq τ] (t : PermissionTable τ) (v : τ) : String :=
  if v = t.default.1 then t.default.2.2
  else match t.processed.find? (fun e => e.1 = v) with
    | some e => e.2.2.2
    | none => t.default.2.2

/-- The constructor functions that `@end` generates, by identifier: `$def_selinux_name()`, then
    `$element_identifier()` for each element. -/
def PermissionTable.constructors (t : PermissionTable τ) : List (String × τ) :=
  (t.default.2.2, t.default.1) :: t.processed.map fun e => (e.2.2.1, e.1)

/-- The generated test module passes: each constructor equals `(<$t>::$variant as i32).into()`,
    the decoding of its variant's discriminant `code`. -/
def PermissionTable.TestsPass (t : PermissionTable τ) (code : τ → BitVec 32) : Prop :=
  ∀ c ∈ t.constructors, t.generatedFrom (code c.2) = c.2

/-! ## The rewrite keeps the table -/

theorem processed_eq (t : PermissionTable τ) :
    t.processed = t.elements.map fun e => (e.1, e.2.1, identifier e.2.2, e.2.2) := by
  simp [PermissionTable.processed, replace_use_eq]

theorem PermissionTable.generatedFrom_eq (t : PermissionTable τ) (p : BitVec 32) :
    t.generatedFrom p = t.from p := by
  simp only [PermissionTable.generatedFrom, PermissionTable.from, processed_eq, List.find?_map,
    Function.comp_def]
  cases t.elements.find? (fun e => decide (e.2.1 = p)) <;> rfl

theorem PermissionTable.generatedToSelinux_eq [DecidableEq τ] (t : PermissionTable τ) (v : τ) :
    t.generatedToSelinux v = t.to_selinux v := by
  simp only [PermissionTable.generatedToSelinux, PermissionTable.to_selinux, processed_eq,
    List.find?_map, Function.comp_def]
  cases t.elements.find? (fun e => decide (e.1 = v)) <;> rfl

theorem PermissionTable.constructors_eq (t : PermissionTable τ) :
    t.constructors = (t.default.2.2, t.default.1) ::
      t.elements.map fun e => (identifier e.2.2, e.1) := by
  simp [PermissionTable.constructors, processed_eq]

/-- For every invocation, the renaming of `use` reaches only the constructor functions: the
    generated `From<i32>` and `to_selinux` are the table's, and each element's constructor is
    named by its selinux name, `use` becoming `use_`. -/
theorem expansion_keeps_table [DecidableEq τ] (t : PermissionTable τ) :
    (∀ p, t.generatedFrom p = t.from p) ∧ (∀ v, t.generatedToSelinux v = t.to_selinux v) ∧
    t.constructors = (t.default.2.2, t.default.1) ::
      t.elements.map fun e => (identifier e.2.2, e.1) :=
  ⟨t.generatedFrom_eq, t.generatedToSelinux_eq, t.constructors_eq⟩

/-! ## Well-formed invocations -/

/-- An invocation whose values are its variants' discriminants `code`, pairwise distinct. -/
def PermissionTable.Consistent (t : PermissionTable τ) (code : τ → BitVec 32) : Prop :=
  (∀ e ∈ t.default :: t.elements, e.2.1 = code e.1) ∧ ((t.default :: t.elements).map (·.2.1)).Nodup

instance (t : PermissionTable τ) (code : τ → BitVec 32) : Decidable (t.Consistent code) :=
  inferInstanceAs (Decidable (_ ∧ _))

section
variable {t : PermissionTable τ} {code : τ → BitVec 32}

theorem PermissionTable.Consistent.from_code (consistent : t.Consistent code) (v : τ) :
    t.from (code v) = v := by
  obtain ⟨e, listed, rfl⟩ : ∃ e ∈ t.default :: t.elements, e.1 = v := by
    rcases t.exhaustive v with rfl | ⟨e, listed, rfl⟩
    exacts [⟨_, List.mem_cons_self _ _, rfl⟩, ⟨e, List.mem_cons_of_mem _ listed, rfl⟩]
  rw [← consistent.1 e listed]
  exact t.from_listed consistent.2 listed

theorem PermissionTable.Consistent.to_selinux_listed [DecidableEq τ] (consistent : t.Consistent code)
    {e : τ × BitVec 32 × String} (listed : e ∈ t.default :: t.elements) :
    t.to_selinux e.1 = e.2.2 := by
  obtain ⟨x, found, variant, named⟩ := t.to_selinux_entry e.1
  have same : x = e := List.inj_on_of_nodup_map consistent.2 found listed
    (show x.2.1 = e.2.1 by rw [consistent.1 x found, consistent.1 e listed, variant])
  rw [named, same]

end

/-- For every invocation whose values are its variants' discriminants and pairwise distinct, the
    generated tests pass, `From<i32>` decodes every discriminant to its variant, and `to_selinux`
    returns each variant's listed name. -/
theorem implement_permission_correct [DecidableEq τ] (t : PermissionTable τ) (code : τ → BitVec 32)
    (consistent : t.Consistent code) :
    t.TestsPass code ∧ (∀ v, t.from (code v) = v) ∧
      ∀ e ∈ t.default :: t.elements, t.to_selinux e.1 = e.2.2 :=
  ⟨fun c _ => (t.generatedFrom_eq _).trans (consistent.from_code c.2), consistent.from_code,
    fun _ listed => consistent.to_selinux_listed listed⟩

/-- The invocation for `KeyPerm`: its generated `key_perm_tests` pass. -/
theorem implement_permission_correct_keyPerm :
    keyPermTable.Consistent KeyPermission.toI32 ∧
    keyPermTable.TestsPass KeyPermission.toI32 ∧
      (∀ v, keyPermTable.from v.toI32 = v) ∧
      ∀ e ∈ keyPermTable.default :: keyPermTable.elements, keyPermTable.to_selinux e.1 = e.2.2 := by
  have consistent : keyPermTable.Consistent KeyPermission.toI32 := by decide
  exact ⟨consistent, implement_permission_correct keyPermTable KeyPermission.toI32 consistent⟩

end Keystore2.Catalog
