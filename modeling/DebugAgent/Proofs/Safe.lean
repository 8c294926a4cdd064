import DebugAgent.Proofs.Makes

/-!
# Actions that do not break

An action breaks when it comes upon something that no sound state holds.  What makes a state sound is
an invariant `I`: an action is safe if it does not break where `I` holds and leads to a state where
`I` holds again, with a result or without.  The lemmas follow the ways in which actions are put
together, once from a state at hand, where an action may rely on what it has just looked up, and once
from all states.
-/

namespace DebugAgent

namespace Action

variable {σ τ ε δ α β : Type} {I : σ → Prop} {s t : σ}

/-- From this state the action does not break, and `I` holds after it. -/
structure SafeAt (I : σ → Prop) (x : Action σ ε α) (s : σ) : Prop where
  unbroken : (x.perform s).1 ≠ .error .broken
  after : I (x.perform s).2

/-- The action does not break where `I` holds, and keeps it. -/
def Safe (I : σ → Prop) (x : Action σ ε α) : Prop := ∀ s, I s → x.SafeAt I s

/-! ### From one state -/

namespace SafeAt

/-- A result and a refusal are both ends that are not broken. -/
theorem of_perform {x : Action σ ε α} (result : Except ε α)
    (hperform : x.perform s = (result.mapError .refused, t)) (ht : I t) : x.SafeAt I s := by
  refine ⟨?_, hperform ▸ ht⟩
  rw [hperform]
  cases result <;> exact fun hbroken => (by cases hbroken)

theorem pure (a : α) (hs : I s) : (pure a : Action σ ε α).SafeAt I s :=
  .of_perform (.ok a) rfl hs

theorem refuse (cause : ε) (hs : I s) : (refuse cause : Action σ ε α).SafeAt I s :=
  .of_perform (.error cause) rfl hs

theorem change {f : σ → σ} (hs : I (f s)) : (change f : Action σ ε Unit).SafeAt I s :=
  .of_perform (.ok ()) rfl hs

theorem update {f : σ → α × σ} (hs : I (f s).2) : (update f : Action σ ε α).SafeAt I s :=
  .of_perform (.ok (f s).1) rfl hs

theorem bind {x : Action σ ε α} {f : α → Action σ ε β} (hx : x.SafeAt I s)
    (hf : ∀ r t, x.perform s = (.ok r, t) → I t → (f r).SafeAt I t) : (x >>= f).SafeAt I s := by
  obtain ⟨hunbroken, hafter⟩ := hx
  cases hperform : x.perform s with
  | mk result t =>
      rw [hperform] at hunbroken hafter
      have heq := perform_bind x f s
      rw [hperform] at heq
      cases result with
      | ok r =>
          have hrest := hf r t hperform hafter
          exact ⟨heq ▸ hrest.unbroken, heq ▸ hrest.after⟩
      | error stop =>
          refine ⟨heq ▸ fun hbroken => hunbroken ?_, heq ▸ hafter⟩
          cases hbroken
          rfl

/-- An action whose outcome is known comes first. -/
theorem step {x : Action σ ε α} {f : α → Action σ ε β} {r : α} (hx : x.perform s = (.ok r, t))
    (hf : (f r).SafeAt I t) : (x >>= f).SafeAt I s := by
  have heq := perform_bind x f s
  rw [hx] at heq
  exact ⟨heq ▸ hf.unbroken, heq ▸ hf.after⟩

theorem look {f : σ → α} {g : α → Action σ ε β} (hg : (g (f s)).SafeAt I s) :
    (look f >>= g).SafeAt I s :=
  .step (perform_look f s) hg

/-- What is known of the result of a query is known to what comes after it. -/
theorem inspect {f : σ → Except ε α} {g : α → Action σ ε β} (hs : I s)
    (hg : ∀ r, f s = .ok r → (g r).SafeAt I s) : (inspect f >>= g).SafeAt I s := by
  refine .bind (.of_perform (f s) (perform_inspect f s) hs) fun r t hperform _ => ?_
  rw [perform_inspect] at hperform
  cases hresult : f s with
  | error cause => rw [hresult] at hperform; cases hperform
  | ok found =>
      rw [hresult] at hperform
      cases hperform
      exact hg r hresult

theorem require {cause : ε} {a? : Option α} {f : α → Action σ ε β} (hs : I s)
    (hf : ∀ a, a? = some a → (f a).SafeAt I s) : (require cause a? >>= f).SafeAt I s := by
  cases a? with
  | none => exact .of_perform (.error cause) rfl hs
  | some a => exact .step (perform_require_some cause a s) (hf a rfl)

end SafeAt

/-! ### From all states -/

theorem safe_pure (a : α) : (pure a : Action σ ε α).Safe I := fun _ => .pure a

theorem safe_refuse (cause : ε) : (refuse cause : Action σ ε α).Safe I := fun _ => .refuse cause

theorem safe_look (f : σ → α) : (look f : Action σ ε α).Safe I :=
  fun s hs => .of_perform (.ok (f s)) rfl hs

theorem safe_inspect (f : σ → Except ε α) : (inspect f : Action σ ε α).Safe I :=
  fun s hs => .of_perform (f s) (perform_inspect f s) hs

theorem safe_require (cause : ε) (a? : Option α) : (require cause a? : Action σ ε α).Safe I := by
  cases a? with
  | none => exact safe_refuse cause
  | some a => exact safe_pure a

theorem safe_guard (condition : Bool) (cause : ε) :
    (guard condition cause : Action σ ε Unit).Safe I := by
  cases condition with
  | true => exact safe_pure ()
  | false => exact safe_refuse cause

theorem safe_change {f : σ → σ} (hf : ∀ s, I s → I (f s)) : (change f : Action σ ε Unit).Safe I :=
  fun s hs => .change (hf s hs)

theorem safe_update {f : σ → α × σ} (hf : ∀ s, I s → I (f s).2) :
    (update f : Action σ ε α).Safe I :=
  fun s hs => .update (hf s hs)

theorem safe_bind {x : Action σ ε α} {f : α → Action σ ε β} (hx : x.Safe I)
    (hf : ∀ r, (f r).Safe I) : (x >>= f).Safe I :=
  fun s hs => .bind (hx s hs) fun r t _ ht => hf r t ht

theorem safe_ite {c : Prop} [Decidable c] {x y : Action σ ε α} (hx : x.Safe I) (hy : y.Safe I) :
    (if c then x else y).Safe I := by
  split
  · exact hx
  · exact hy

theorem safe_map (f : α → β) {x : Action σ ε α} (hx : x.Safe I) : (f <$> x).Safe I := by
  rw [map_eq_pure_bind]
  exact safe_bind hx fun a => safe_pure (f a)

theorem safe_mapM {f : α → Action σ ε β} (hf : ∀ a, (f a).Safe I) (as : List α) :
    (as.mapM f).Safe I := by
  induction as with
  | nil => exact safe_pure []
  | cons a as ih =>
      rw [List.mapM_cons]
      exact safe_bind (hf a) fun b => safe_bind ih fun bs => safe_pure (b :: bs)

theorem safe_forM {f : α → Action σ ε Unit} (hf : ∀ a, (f a).Safe I) (as : List α) :
    (as.forM f).Safe I := by
  induction as with
  | nil => exact safe_pure ()
  | cons a as ih => exact safe_bind (hf a) fun _ => ih

theorem safe_foldlM {f : β → α → Action σ ε β} (hf : ∀ b a, (f b a).Safe I) (b : β)
    (as : List α) : (as.foldlM f b).Safe I := by
  induction as generalizing b with
  | nil => exact safe_pure b
  | cons a as ih =>
      rw [List.foldlM_cons]
      exact safe_bind (hf b a) ih

/-- Only what breaks still breaks when refusals are results. -/
theorem safe_attempt {x : Action σ ε α} (hx : x.Safe I) :
    (x.attempt : Action σ δ (Except ε α)).Safe I := by
  intro s hs
  obtain ⟨hunbroken, hafter⟩ := hx s hs
  refine ⟨?_, by rwa [perform_attempt_snd]⟩
  rw [attempt, perform_of]
  split
  · exact fun hbroken => (by cases hbroken)
  · exact fun hbroken => (by cases hbroken)
  · rename_i hperform
    rw [hperform] at hunbroken
    exact absurd rfl hunbroken

theorem safe_mapCause (f : ε → δ) {x : Action σ ε α} (hx : x.Safe I) : (x.mapCause f).Safe I := by
  intro s hs
  obtain ⟨hunbroken, hafter⟩ := hx s hs
  refine ⟨?_, by rwa [perform_mapCause_snd]⟩
  rw [mapCause, perform_of]
  split
  · exact fun hbroken => (by cases hbroken)
  · exact fun hbroken => (by cases hbroken)
  · rename_i hperform
    rw [hperform] at hunbroken
    exact absurd rfl hunbroken

theorem safe_ensuring {cleanup : σ → σ} {x : Action σ ε α} (hx : x.Safe I)
    (hcleanup : ∀ s, I s → I (cleanup s)) : (x.ensuring cleanup).Safe I :=
  fun s hs => ⟨(hx s hs).unbroken, hcleanup _ (hx s hs).after⟩

/-- An action on a part of the state keeps what holds of the part, if the rest allows for it. -/
theorem safe_within {J : τ → Prop} {part : τ → σ} {put : τ → σ → τ} {x : Action σ ε α}
    (hx : x.Safe I) (hpart : ∀ t, J t → I (part t)) (hput : ∀ t s, J t → I s → J (put t s)) :
    (x.within part put).Safe J := by
  intro t ht
  obtain ⟨hunbroken, hafter⟩ := hx (part t) (hpart t ht)
  exact ⟨hunbroken, hput t _ ht hafter⟩

end Action

end DebugAgent
