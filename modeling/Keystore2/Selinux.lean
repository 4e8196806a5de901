import Mathlib.Logic.Unique

/-!
# The selinux backend

The checks of `permission.rs` call `keystore2_selinux` for their target contexts and access
decisions. A check is modelled as a `Prog`: it ends with a value or an error, or it makes one
call and continues with the backend's answer. `Prog.run` is the outcome under a `Backend` and
`Prog.calls` the calls it makes, in order; `run_bind` and `calls_bind` let every check be read
off the outcomes of its parts. Errors are `anyhow` errors, a root cause and the context
messages added on the way out; `.context(msg)` adds a message and keeps the root cause.
-/

namespace Keystore2.Selinux

/-- `selinux::Context`, a security context. -/
structure Context where
  label : String
  deriving DecidableEq, Repr

/-- The root causes that `keystore2_selinux` raises: `selinux::Error::perm()` for a denied access
    check, and any other failure, told apart by its message. -/
inductive SelinuxError where
  | perm
  | other (message : String)
  deriving DecidableEq, Repr

/-- The root cause of an error of `permission.rs`: one that the backend raised, or
    `KsError::sys()`, the only `crate::error::Error` raised here. -/
inductive Cause where
  | selinux (e : SelinuxError)
  | sys
  deriving DecidableEq, Repr

/-- An `anyhow::Error`: its root cause and its context messages, the outermost first. -/
structure Failure (ε : Type) where
  root : ε
  context : List String
  deriving DecidableEq, Repr

/-- `.context(msg)` of `anyhow`: the message wraps the error and the root cause stays. -/
def Failure.wrap {ε : Type} (e : Failure ε) (msg : String) : Failure ε := ⟨e.root, msg :: e.context⟩

/-- A call into the backend. -/
inductive Call where
  /-- `getcon()`, the context of keystore itself. -/
  | getcon
  /-- `KeystoreKeyBackend::new()`. -/
  | keystoreKeyBackendNew
  /-- `backend.lookup(key)`, the context of a `keystore2_key` namespace. -/
  | lookup (key : String)
  /-- `selinux::check_access(source, target, tclass, perm)`. -/
  | checkAccess (source target : Context) (tclass perm : String)
  deriving DecidableEq, Repr

/-- What a call answers when it succeeds. -/
@[reducible] def Call.Answer : Call → Type
  | .getcon => Context
  | .keystoreKeyBackendNew => Unit
  | .lookup _ => Context
  | .checkAccess .. => Unit

/-- Whether a call is an access query. -/
def Call.isCheckAccess : Call → Bool
  | .checkAccess .. => true
  | _ => false

/-- The answers of `keystore2_selinux`. One check sees one answer per call: the handle that
    `KeystoreKeyBackend::new` opens is not modelled, every handle answering lookups alike. -/
structure Backend where
  getcon : Except (Failure SelinuxError) Context
  keystoreKeyBackendNew : Except (Failure SelinuxError) Unit
  lookup : String → Except (Failure SelinuxError) Context
  checkAccess : Context → Context → String → String → Except (Failure SelinuxError) Unit

@[simp] def Backend.answer (b : Backend) : (c : Call) → Except (Failure SelinuxError) c.Answer
  | .getcon => b.getcon
  | .keystoreKeyBackendNew => b.keystoreKeyBackendNew
  | .lookup key => b.lookup key
  | .checkAccess source target tclass perm => b.checkAccess source target tclass perm

/-- The backend's refusal of a call, if it refuses it. -/
def Backend.refusal (b : Backend) (c : Call) : Option (Failure SelinuxError) :=
  match b.answer c with
  | .ok _ => none
  | .error f => some f

/-- The backend never refuses a context resolution (`getcon`, a new keystore key backend, a
    namespace lookup) with permission denied: only an access check can be denied. -/
def Backend.ResolutionNotDenied (b : Backend) : Prop :=
  ∀ c f, c.isCheckAccess = false → b.refusal c = some f → f.root ≠ .perm

/-- A backend that answers from a policy: `own` is keystore's context and the context of every
    namespace, and an access check fails, with `selinux::Error::perm()`, when `allowed` says no. -/
def Backend.ofPolicy (own : Context) (allowed : Context → Context → String → String → Bool) :
    Backend where
  getcon := .ok own
  keystoreKeyBackendNew := .ok ()
  lookup _ := .ok own
  checkAccess source target tclass perm :=
    if allowed source target tclass perm then .ok () else .error ⟨.perm, []⟩

theorem Backend.resolutionNotDenied_ofPolicy (own : Context)
    (allowed : Context → Context → String → String → Bool) :
    (Backend.ofPolicy own allowed).ResolutionNotDenied := by
  rintro (_ | _ | _ | _) f resolving refused <;>
    simp [Backend.refusal, Backend.ofPolicy, Call.isCheckAccess] at resolving refused

/-- `b'` answers with a success every call that `b` answers with one, and with the same value:
    it resolves the same contexts and allows at least what `b` allows. -/
def Backend.SucceedsWhere (b' b : Backend) : Prop :=
  ∀ c a, b.answer c = .ok a → b'.answer c = .ok a

/-- A policy that allows more makes a backend that succeeds wherever the other does. -/
theorem Backend.succeedsWhere_ofPolicy (own : Context)
    {allowed allowed' : Context → Context → String → String → Bool}
    (wider : ∀ s t tclass perm, allowed s t tclass perm = true → allowed' s t tclass perm = true) :
    (Backend.ofPolicy own allowed').SucceedsWhere (Backend.ofPolicy own allowed) := by
  rintro (_ | _ | _ | ⟨s, t, tclass, perm⟩) a answered <;> simp_all [Backend.ofPolicy]

/-- A computation of `permission.rs` over the backend. -/
inductive Prog (α : Type) where
  | ret (a : α)
  | fail (e : Failure Cause)
  | call (c : Call) (k : Except (Failure SelinuxError) c.Answer → Prog α)

namespace Prog

variable {α β : Type}

def bind : Prog α → (α → Prog β) → Prog β
  | .ret a, f => f a
  | .fail e, _ => .fail e
  | .call c k, f => .call c fun r => (k r).bind f

instance : Monad Prog where
  pure := Prog.ret
  bind := Prog.bind

/-- A backend failure raised as an error of `permission.rs`. -/
def lift (e : Failure SelinuxError) : Failure Cause := ⟨.selinux e.root, e.context⟩

/-- A call whose error is raised with `?`. -/
def invoke (c : Call) : Prog c.Answer :=
  .call c fun
    | .ok a => .ret a
    | .error e => .fail (lift e)

/-- `Err(e)`: an error with no context yet. -/
def err (root : Cause) : Prog α := .fail ⟨root, []⟩

/-- `.context(msg)`: every error the computation raises gets the message. -/
def context (msg : String) : Prog α → Prog α
  | .ret a => .ret a
  | .fail e => .fail (e.wrap msg)
  | .call c k => .call c fun r => (k r).context msg

/-- The outcome of a computation under the backend's answers. -/
def run (b : Backend) : Prog α → Except (Failure Cause) α
  | .ret a => .ok a
  | .fail e => .error e
  | .call c k => (k (b.answer c)).run b

/-- The calls a computation makes under the backend's answers, in order. -/
def calls (b : Backend) : Prog α → List Call
  | .ret _ => []
  | .fail _ => []
  | .call c k => c :: (k (b.answer c)).calls b

variable {b : Backend}

@[simp] theorem run_pure (a : α) : (Pure.pure a : Prog α).run b = .ok a := rfl
@[simp] theorem calls_pure (a : α) : (Pure.pure a : Prog α).calls b = [] := rfl
@[simp] theorem run_err (root : Cause) : (err root : Prog α).run b = .error ⟨root, []⟩ := rfl
@[simp] theorem calls_err (root : Cause) : (err root : Prog α).calls b = [] := rfl

theorem run_invoke (c : Call) : (invoke c).run b = (b.answer c).mapError lift := by
  simp only [invoke, run]
  cases b.answer c <;> rfl

@[simp] theorem calls_invoke (c : Call) : (invoke c).calls b = [c] := by
  simp only [invoke, calls]
  split <;> rfl

theorem run_context (msg : String) (p : Prog α) :
    (p.context msg).run b = (p.run b).mapError (·.wrap msg) := by
  induction p with
  | ret a => rfl
  | fail e => rfl
  | call c k ih => exact ih _

@[simp] theorem calls_context (msg : String) (p : Prog α) : (p.context msg).calls b = p.calls b := by
  induction p with
  | ret a => rfl
  | fail e => rfl
  | call c k ih => exact congrArg (c :: ·) (ih _)

theorem run_bind (p : Prog α) (f : α → Prog β) :
    (p >>= f).run b = match p.run b with
      | .ok a => (f a).run b
      | .error e => .error e := by
  induction p with
  | ret a => rfl
  | fail e => rfl
  | call c k ih => exact ih _

@[simp] theorem calls_bind (p : Prog α) (f : α → Prog β) :
    (p >>= f).calls b = p.calls b ++ match p.run b with
      | .ok a => (f a).calls b
      | .error _ => [] := by
  induction p with
  | ret a => rfl
  | fail e => rfl
  | call c k ih => exact congrArg (c :: ·) (ih _)

/-! ### When a computation succeeds -/

@[simp] theorem mapError_ok {ε ε' : Type} (f : ε → ε') (a : α) :
    (Except.ok a : Except ε α).mapError f = .ok a := rfl

@[simp] theorem mapError_error {ε ε' : Type} (f : ε → ε') (e : ε) :
    (Except.error e : Except ε α).mapError f = .error (f e) := rfl

@[simp] theorem mapError_eq_ok {ε ε' : Type} {f : ε → ε'} {x : Except ε α} {a : α} :
    x.mapError f = .ok a ↔ x = .ok a := by
  cases x <;> simp

@[simp] theorem run_bind_eq_ok {p : Prog α} {f : α → Prog β} {y : β} :
    (p >>= f).run b = .ok y ↔ ∃ x, p.run b = .ok x ∧ (f x).run b = .ok y := by
  rw [run_bind]
  cases h : p.run b <;> simp

@[simp] theorem run_context_eq_ok {msg : String} {p : Prog α} {y : α} :
    (p.context msg).run b = .ok y ↔ p.run b = .ok y := by
  simp [run_context]

/-- A loop with `?` in its body succeeds when the body succeeds on every item. -/
theorem run_forM_eq_ok (l : List α) (f : α → Prog Unit) :
    (l.forM f).run b = .ok () ↔ ∀ x ∈ l, (f x).run b = .ok () := by
  induction l with
  | nil => simp
  | cons x l ih => rw [List.forM_cons', run_bind_eq_ok]; simp [ih, Unique.exists_iff]

@[simp] theorem toBool_mapError {ε ε' : Type} (f : ε → ε') (x : Except ε α) :
    (x.mapError f).toBool = x.toBool := by
  cases x <;> rfl

@[simp] theorem toBool_run_context (msg : String) (p : Prog α) :
    ((p.context msg).run b).toBool = (p.run b).toBool := by
  simp [run_context]

/-- A loop whose body makes one call and fails exactly when that call fails makes the body's
    calls in order, up to and including the first that fails. -/
theorem calls_forM (l : List α) (f : α → Prog Unit) (q : α → Call)
    (one : ∀ x, (f x).calls b = [q x]) (same : ∀ x, ((f x).run b).toBool = (b.answer (q x)).toBool) :
    (l.forM f).calls b =
      (l.map q).take (((l.map q).takeWhile fun c => (b.answer c).toBool).length + 1) := by
  induction l with
  | nil => rfl
  | cons x l ih =>
    rw [List.forM_cons', calls_bind, one, ih, List.map_cons, List.takeWhile_cons, ← same]
    cases (f x).run b <;> rfl

/-! ### Where an error comes from -/

/-- The backend's refusal of the last call of a run, if it refused it. -/
def lastRefusal (p : Prog α) (b : Backend) : Option (Failure SelinuxError) :=
  (p.calls b).getLast?.bind b.refusal

/-- Every error of a run of `p` is the backend's refusal of the run's last call, with its root
    cause unchanged. -/
def Propagates (p : Prog α) (b : Backend) : Prop :=
  ∀ e, p.run b = .error e → ∃ f, p.lastRefusal b = some f ∧ e.root = .selinux f.root

/-- A refusal of the calls' last call is still the last refusal after more calls before them. -/
theorem refusal_getLast?_append {l l' : List Call} {f : Failure SelinuxError}
    (h : l'.getLast?.bind b.refusal = some f) : (l ++ l').getLast?.bind b.refusal = some f := by
  obtain ⟨c, last, refused⟩ := Option.bind_eq_some.mp h
  simp [last, refused]

theorem propagates_pure (a : α) : (Pure.pure a : Prog α).Propagates b := fun _ h => nomatch h

theorem propagates_invoke (c : Call) : (invoke c).Propagates b := by
  intro e h
  rw [run_invoke] at h
  simp only [lastRefusal, calls_invoke, List.getLast?_singleton, Option.some_bind, Backend.refusal]
  cases hc : b.answer c <;> simp only [hc, mapError_ok, mapError_error, reduceCtorEq,
    Except.error.injEq] at h
  exact ⟨_, rfl, h ▸ rfl⟩

theorem Propagates.context {p : Prog α} (msg : String) (hp : p.Propagates b) :
    (p.context msg).Propagates b := by
  intro e h
  rw [run_context] at h
  cases hr : p.run b <;> simp only [hr, mapError_ok, mapError_error, reduceCtorEq,
    Except.error.injEq] at h
  obtain ⟨f, last, root⟩ := hp _ hr
  exact ⟨f, by simpa [lastRefusal] using last, h ▸ root⟩

theorem Propagates.bind {p : Prog α} {k : α → Prog β} (hp : p.Propagates b)
    (hk : ∀ a, (k a).Propagates b) : (p >>= k).Propagates b := by
  intro e h
  rw [run_bind] at h
  cases hr : p.run b with
  | error e₀ =>
    simp only [hr, Except.error.injEq] at h
    simpa [lastRefusal, hr, h] using hp e₀ hr
  | ok a =>
    simp only [hr] at h
    obtain ⟨f, last, root⟩ := hk a e h
    exact ⟨f, by simpa [lastRefusal, hr] using refusal_getLast?_append last, root⟩

theorem propagates_forM (l : List α) {f : α → Prog Unit} (hf : ∀ x, (f x).Propagates b) :
    (l.forM f).Propagates b := by
  induction l with
  | nil => exact propagates_pure ()
  | cons x l ih => rw [List.forM_cons']; exact (hf x).bind fun _ => ih

/-! ### What an error says -/

/-- Every error of a run of `p` is `shape c f`, for the run's last call `c` and the backend's
    refusal `f` of it, or one that the computation `raised` itself: the error as a whole, root
    cause and context messages. -/
def FailsAs (p : Prog α) (b : Backend) (shape : Call → Failure SelinuxError → Failure Cause)
    (raised : Failure Cause → Prop) : Prop :=
  ∀ e, p.run b = .error e →
    (∃ c f, (p.calls b).getLast? = some c ∧ b.refusal c = some f ∧ e = shape c f) ∨ raised e

section
variable {shape : Call → Failure SelinuxError → Failure Cause} {raised : Failure Cause → Prop}

theorem failsAs_pure (a : α) : (Pure.pure a : Prog α).FailsAs b shape raised :=
  fun _ h => nomatch h

theorem failsAs_err (root : Cause) (own : raised ⟨root, []⟩) :
    (err root : Prog α).FailsAs b shape raised := by
  rintro e ⟨⟩
  exact .inr own

theorem failsAs_invoke (c : Call) (same : ∀ f, shape c f = lift f) :
    (invoke c).FailsAs b shape raised := by
  intro e h
  rw [run_invoke] at h
  cases hc : b.answer c <;> simp only [hc, mapError_ok, mapError_error, reduceCtorEq,
    Except.error.injEq] at h
  exact .inl ⟨c, _, by simp, by rw [Backend.refusal, hc], by rw [← h, same]⟩

/-- `.context(msg)` puts `msg` on every error, root cause and the messages below kept. -/
theorem FailsAs.context {p : Prog α} {inner : Call → Failure SelinuxError → Failure Cause}
    {innerRaised : Failure Cause → Prop} (msg : String) (hp : p.FailsAs b inner innerRaised)
    (wrapped : ∀ c ∈ p.calls b, ∀ f, shape c f = (inner c f).wrap msg)
    (wrappedRaised : ∀ e, innerRaised e → raised (e.wrap msg)) :
    (p.context msg).FailsAs b shape raised := by
  intro e h
  rw [run_context] at h
  cases hr : p.run b <;> simp only [hr, mapError_ok, mapError_error, reduceCtorEq,
    Except.error.injEq] at h
  subst h
  rcases hp _ hr with ⟨c, f, last, refused, rfl⟩ | own
  · exact .inl ⟨c, f, by simpa using last, refused, (wrapped c (List.mem_of_mem_getLast? last) f).symm⟩
  · exact .inr (wrappedRaised _ own)

/-- A call with `.context(msg)`: its failure is the backend's, under `msg`. -/
theorem failsAs_invoke_context (c : Call) (msg : String)
    (wrapped : ∀ f, shape c f = (lift f).wrap msg) : ((invoke c).context msg).FailsAs b shape raised :=
  FailsAs.context msg
    (failsAs_invoke c fun _ => rfl : (invoke c).FailsAs b (fun _ f => lift f) fun _ => False)
    (fun c' mem f => by
      simp only [calls_invoke, List.mem_singleton] at mem
      exact mem ▸ wrapped f)
    fun _ => False.elim

/-- `Err(root).context(msg)`, raised by the computation itself. -/
theorem failsAs_err_context (root : Cause) (msg : String) (own : raised ⟨root, [msg]⟩) :
    ((err root : Prog α).context msg).FailsAs b shape raised :=
  FailsAs.context msg (failsAs_err root rfl : (err root : Prog α).FailsAs b shape (· = ⟨root, []⟩))
    (fun _ mem => nomatch mem) fun _ same => same ▸ own

theorem FailsAs.bind {p : Prog α} {k : α → Prog β} (hp : p.FailsAs b shape raised)
    (hk : ∀ a, p.run b = .ok a → (k a).FailsAs b shape raised) :
    (p >>= k).FailsAs b shape raised := by
  intro e h
  rw [run_bind] at h
  cases hr : p.run b with
  | error e₀ =>
    simp only [hr, Except.error.injEq] at h
    subst h
    simpa [hr] using hp e₀ hr
  | ok a =>
    simp only [hr] at h
    rcases hk a hr e h with ⟨c, f, last, refused, rfl⟩ | own
    · exact .inl ⟨c, f, by simp [hr, last], refused, rfl⟩
    · exact .inr own

theorem failsAs_forM (l : List α) {f : α → Prog Unit} (hf : ∀ x ∈ l, (f x).FailsAs b shape raised) :
    (l.forM f).FailsAs b shape raised := by
  induction l with
  | nil => exact failsAs_pure ()
  | cons x l ih =>
    rw [List.forM_cons']
    exact (hf x (List.mem_cons_self x l)).bind fun _ _ =>
      ih fun y listed => hf y (List.mem_cons_of_mem x listed)

end

end Prog

end Keystore2.Selinux
