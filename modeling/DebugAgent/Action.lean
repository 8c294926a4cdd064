/-!
# Actions

An action works on a state and either returns a result or stops.  It stops because it is refused,
for a cause that its caller is told, or because it ran into something that a sound state never
holds: an object outside the heap, an object of the wrong kind, a counter below zero.  Whatever an
action did to the state before it stopped stays done.
-/

namespace DebugAgent

/-- Why an action ended without a result. -/
inductive Stop (ε : Type) where
  | refused (cause : ε)
  | broken
  deriving DecidableEq, Repr

/-- An action on states `σ` that may be refused for causes `ε`. -/
abbrev Action (σ ε α : Type) := ExceptT (Stop ε) (StateM σ) α

namespace Action

variable {σ τ ε δ α : Type}

/-- Runs an action.  The state comes back in any case. -/
def perform (x : Action σ ε α) (s : σ) : Except (Stop ε) α × σ := x s

/-- The action that treats a state as `f` says. -/
def of (f : σ → Except (Stop ε) α × σ) : Action σ ε α := f

def refuse (cause : ε) : Action σ ε α := of fun s => (.error (.refused cause), s)

def collapse : Action σ ε α := of fun s => (.error .broken, s)

/-- Looks at the state. -/
def look (f : σ → α) : Action σ ε α := of fun s => (.ok (f s), s)

/-- Changes the state. -/
def change (f : σ → σ) : Action σ ε Unit := of fun s => (.ok (), f s)

/-- Changes the state and returns what the change yields. -/
def update (f : σ → α × σ) : Action σ ε α := of fun s => (.ok (f s).1, (f s).2)

/-- Looks at the state and is refused if there is nothing to be seen. -/
def inspect (f : σ → Except ε α) : Action σ ε α := of fun s => ((f s).mapError .refused, s)

/-- The result of a computation that does not depend on the state. -/
def ofExcept (r : Except ε α) : Action σ ε α := inspect fun _ => r

/-- A result that is there, or a refusal. -/
def require (cause : ε) : Option α → Action σ ε α
  | some a => pure a
  | none => refuse cause

/-- A result that a sound state always has. -/
def expect : Option α → Action σ ε α
  | some a => pure a
  | none => collapse

/-- Is refused unless the condition holds. -/
def guard (condition : Bool) (cause : ε) : Action σ ε Unit :=
  if condition then pure () else refuse cause

/-- Runs an action and returns its refusal as a result. -/
def attempt (x : Action σ ε α) : Action σ δ (Except ε α) := of fun s =>
  match x.perform s with
  | (.ok a, s') => (.ok (.ok a), s')
  | (.error (.refused cause), s') => (.ok (.error cause), s')
  | (.error .broken, s') => (.error .broken, s')

/-- Runs an action and then changes the state, however the action ended. -/
def ensuring (cleanup : σ → σ) (x : Action σ ε α) : Action σ ε α := of fun s =>
  let r := x.perform s
  (r.1, cleanup r.2)

/-- Gives the causes of an action other names. -/
def mapCause (f : ε → δ) (x : Action σ ε α) : Action σ δ α := of fun s =>
  match x.perform s with
  | (.ok a, s') => (.ok a, s')
  | (.error (.refused cause), s') => (.error (.refused (f cause)), s')
  | (.error .broken, s') => (.error .broken, s')

/-- Runs an action on a part of the state. -/
def within (part : τ → σ) (put : τ → σ → τ) (x : Action σ ε α) : Action τ ε α := of fun t =>
  let r := x.perform (part t)
  (r.1, put t r.2)

/-! ### What running an action does -/

@[simp] theorem perform_pure (a : α) (s : σ) :
    (pure a : Action σ ε α).perform s = (.ok a, s) := rfl

/-- The second action runs on the state that the first one left, if the first one had a result. -/
theorem perform_bind {β : Type} (x : Action σ ε α) (f : α → Action σ ε β) (s : σ) :
    (x >>= f).perform s =
      match x.perform s with
      | (.ok a, s') => (f a).perform s'
      | (.error stop, s') => (.error stop, s') := by
  simp only [perform, bind, ExceptT.bind, ExceptT.mk, StateT.bind, ExceptT.bindCont]
  rcases x s with ⟨_ | _, _⟩ <;> rfl

theorem perform_bind_of_ok {β : Type} {x : Action σ ε α} {s s' : σ} {a : α}
    (h : x.perform s = (.ok a, s')) (f : α → Action σ ε β) :
    (x >>= f).perform s = (f a).perform s' := by
  rw [perform_bind, h]

/-- Where two actions in a row end without a result, the first does, or the second after it. -/
theorem perform_bind_error {β : Type} {x : Action σ ε α} {f : α → Action σ ε β} {s t : σ}
    {stop : Stop ε} (h : (x >>= f).perform s = (.error stop, t)) :
    x.perform s = (.error stop, t) ∨
      ∃ a s', x.perform s = (.ok a, s') ∧ (f a).perform s' = (.error stop, t) := by
  rw [perform_bind] at h
  rcases hx : x.perform s with ⟨cause | a, s'⟩
  · rw [hx] at h
    cases h
    exact .inl rfl
  · rw [hx] at h
    exact .inr ⟨a, s', rfl, h⟩

@[simp] theorem perform_map {β : Type} (f : α → β) (x : Action σ ε α) (s : σ) :
    (f <$> x).perform s = ((x.perform s).1.map f, (x.perform s).2) := by
  simp only [perform, Functor.map, ExceptT.map, ExceptT.mk, StateT.bind, bind]
  rcases x s with ⟨_ | _, _⟩ <;> rfl

@[simp] theorem perform_of (f : σ → Except (Stop ε) α × σ) (s : σ) : (of f).perform s = f s := rfl

@[simp] theorem perform_refuse (cause : ε) (s : σ) :
    (refuse cause : Action σ ε α).perform s = (.error (.refused cause), s) := rfl

@[simp] theorem perform_collapse (s : σ) :
    (collapse : Action σ ε α).perform s = (.error .broken, s) := rfl

@[simp] theorem perform_look (f : σ → α) (s : σ) :
    (look f : Action σ ε α).perform s = (.ok (f s), s) := rfl

@[simp] theorem perform_change (f : σ → σ) (s : σ) :
    (change f : Action σ ε Unit).perform s = (.ok (), f s) := rfl

@[simp] theorem perform_update (f : σ → α × σ) (s : σ) :
    (update f : Action σ ε α).perform s = (.ok (f s).1, (f s).2) := rfl

@[simp] theorem mapError_ok (f : ε → δ) (a : α) : (Except.ok a).mapError f = .ok a := rfl

@[simp] theorem mapError_error (f : ε → δ) (cause : ε) :
    (Except.error cause : Except ε α).mapError f = .error (f cause) := rfl

@[simp] theorem perform_inspect (f : σ → Except ε α) (s : σ) :
    (inspect f : Action σ ε α).perform s = ((f s).mapError .refused, s) := rfl

@[simp] theorem perform_require_none (cause : ε) (s : σ) :
    (require cause none : Action σ ε α).perform s = (.error (.refused cause), s) := rfl

@[simp] theorem perform_require_some (cause : ε) (a : α) (s : σ) :
    (require cause (some a) : Action σ ε α).perform s = (.ok a, s) := rfl

@[simp] theorem perform_expect_none (s : σ) :
    (expect none : Action σ ε α).perform s = (.error .broken, s) := rfl

@[simp] theorem perform_expect_some (a : α) (s : σ) :
    (expect (some a) : Action σ ε α).perform s = (.ok a, s) := rfl

@[simp] theorem perform_guard_true (cause : ε) (s : σ) :
    (guard true cause : Action σ ε Unit).perform s = (.ok (), s) := rfl

@[simp] theorem perform_guard_false (cause : ε) (s : σ) :
    (guard false cause : Action σ ε Unit).perform s = (.error (.refused cause), s) := rfl

@[simp] theorem perform_ensuring (cleanup : σ → σ) (x : Action σ ε α) (s : σ) :
    (x.ensuring cleanup).perform s = ((x.perform s).1, cleanup (x.perform s).2) := rfl

/-- An action on a part leaves the rest of the state alone. -/
@[simp] theorem perform_within (part : τ → σ) (put : τ → σ → τ) (x : Action σ ε α) (t : τ) :
    (x.within part put).perform t =
      ((x.perform (part t)).1, put t (x.perform (part t)).2) := rfl

end Action

end DebugAgent
