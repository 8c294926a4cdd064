import DebugAgent.Action
import Mathlib.Logic.Relation

/-!
# Changes that actions make

However long an action is, it changes the state by a few kinds of small changes only.
`Action.Makes R` says that whatever comes of an action, it leads from one state to the next by
changes of kind `R` one after another.  The lemmas follow the ways in which actions are put
together, so that a fact about states is proved change by change and never action by action.
-/

namespace DebugAgent

open Relation (ReflTransGen)

namespace Action

variable {σ ε δ α β : Type} {R : σ → σ → Prop}

/-- Whatever comes of it, the action leads from one state to the next by changes of one kind. -/
def Makes (R : σ → σ → Prop) (x : Action σ ε α) : Prop :=
  ∀ s, ReflTransGen R s (x.perform s).2

/-- An action that makes changes of one kind makes changes of any kind that includes them. -/
theorem Makes.mono {S : σ → σ → Prop} (hS : ∀ s s', R s s' → S s s') {x : Action σ ε α}
    (hx : x.Makes R) : x.Makes S :=
  fun s => ReflTransGen.mono hS _ _ (hx s)

/-- What every change preserves the action preserves. -/
theorem Makes.preserves {P : σ → Prop} (hR : ∀ {s s'}, R s s' → P s → P s') {x : Action σ ε α}
    (hx : x.Makes R) {s : σ} (hs : P s) : P (x.perform s).2 := by
  have hseries : ∀ {s'}, ReflTransGen R s s' → P s' := by
    intro s' h
    induction h with
    | refl => exact hs
    | tail _ hlast ih => exact hR hlast ih
  exact hseries (hx s)

/-- What no change touches the action does not touch. -/
theorem Makes.same {τ : Type} {f : σ → τ} (hR : ∀ {s s'}, R s s' → f s' = f s) {x : Action σ ε α}
    (hx : x.Makes R) (s : σ) : f (x.perform s).2 = f s :=
  hx.preserves (P := fun s' => f s' = f s) (fun h hs => (hR h).trans hs) rfl

/-- An action that leaves the state alone. -/
theorem makes_of_eq {x : Action σ ε α} (h : ∀ s, (x.perform s).2 = s) : x.Makes R := by
  intro s
  rw [h s]

theorem makes_pure (a : α) : (pure a : Action σ ε α).Makes R := makes_of_eq fun _ => rfl

theorem makes_refuse (cause : ε) : (refuse cause : Action σ ε α).Makes R :=
  makes_of_eq fun _ => rfl

theorem makes_look (f : σ → α) : (look f : Action σ ε α).Makes R := makes_of_eq fun _ => rfl

theorem makes_inspect (f : σ → Except ε α) : (inspect f : Action σ ε α).Makes R :=
  makes_of_eq fun _ => rfl

theorem makes_require (cause : ε) (a? : Option α) : (require cause a? : Action σ ε α).Makes R :=
  makes_of_eq fun _ => by cases a? <;> rfl

theorem makes_expect (a? : Option α) : (expect a? : Action σ ε α).Makes R :=
  makes_of_eq fun _ => by cases a? <;> rfl

theorem makes_guard (condition : Bool) (cause : ε) :
    (guard condition cause : Action σ ε Unit).Makes R :=
  makes_of_eq fun _ => by cases condition <;> rfl

theorem makes_change {f : σ → σ} (h : ∀ s, ReflTransGen R s (f s)) :
    (change f : Action σ ε Unit).Makes R := h

theorem makes_update {f : σ → α × σ} (h : ∀ s, ReflTransGen R s (f s).2) :
    (update f : Action σ ε α).Makes R := h

theorem makes_bind {x : Action σ ε α} {f : α → Action σ ε β} (hx : x.Makes R)
    (hf : ∀ a, (f a).Makes R) : (x >>= f).Makes R := by
  intro s
  rw [perform_bind]
  cases h : x.perform s with
  | mk result s' =>
      have hx := hx s
      rw [h] at hx
      cases result with
      | ok a => exact hx.trans (hf a s')
      | error stop => exact hx

theorem makes_ite {c : Prop} [Decidable c] {x y : Action σ ε α} (hx : x.Makes R) (hy : y.Makes R) :
    (if c then x else y).Makes R := by
  split
  · exact hx
  · exact hy

theorem makes_map (f : α → β) {x : Action σ ε α} (hx : x.Makes R) : (f <$> x).Makes R := by
  rw [map_eq_pure_bind]
  exact makes_bind hx fun a => makes_pure (f a)

theorem makes_mapM {f : α → Action σ ε β} (hf : ∀ a, (f a).Makes R) (as : List α) :
    (as.mapM f).Makes R := by
  induction as with
  | nil => exact makes_pure []
  | cons a as ih =>
      rw [List.mapM_cons]
      exact makes_bind (hf a) fun b => makes_bind ih fun bs => makes_pure (b :: bs)

theorem makes_forM {f : α → Action σ ε Unit} (hf : ∀ a, (f a).Makes R) (as : List α) :
    (as.forM f).Makes R := by
  induction as with
  | nil => exact makes_pure ()
  | cons a as ih => exact makes_bind (hf a) fun _ => ih

theorem makes_foldlM {f : β → α → Action σ ε β} (hf : ∀ b a, (f b a).Makes R) (b : β)
    (as : List α) : (as.foldlM f b).Makes R := by
  induction as generalizing b with
  | nil => exact makes_pure b
  | cons a as ih =>
      rw [List.foldlM_cons]
      exact makes_bind (hf b a) ih

@[simp] theorem perform_attempt_snd (x : Action σ ε α) (s : σ) :
    ((x.attempt : Action σ δ _).perform s).2 = (x.perform s).2 := by
  simp only [attempt, perform_of]
  split <;> simp_all

@[simp] theorem perform_mapCause_snd (f : ε → δ) (x : Action σ ε α) (s : σ) :
    ((x.mapCause f).perform s).2 = (x.perform s).2 := by
  simp only [mapCause, perform_of]
  split <;> simp_all

theorem makes_attempt {x : Action σ ε α} (hx : x.Makes R) :
    (x.attempt : Action σ δ _).Makes R := by
  intro s
  rw [perform_attempt_snd]
  exact hx s

theorem makes_mapCause (f : ε → δ) {x : Action σ ε α} (hx : x.Makes R) :
    (x.mapCause f).Makes R := by
  intro s
  rw [perform_mapCause_snd]
  exact hx s

/-- What each action of a list preserves, all of them together do. -/
theorem mapM_preserves {P : σ → Prop} {f : α → Action σ ε β} {as : List α}
    (hf : ∀ a ∈ as, ∀ s, P s → P ((f a).perform s).2) {s : σ} (hs : P s) :
    P ((as.mapM f).perform s).2 := by
  induction as generalizing s with
  | nil => exact hs
  | cons a as ih =>
      obtain ⟨hfirst, hrest⟩ := List.forall_mem_cons.mp hf
      have hafter := hfirst s hs
      rw [List.mapM_cons, perform_bind]
      cases hperform : (f a).perform s with
      | mk result t =>
          rw [hperform] at hafter
          cases result with
          | error stop => exact hafter
          | ok r =>
              have hlast := ih hrest hafter
              dsimp only
              rw [perform_bind]
              split
              · rename_i heq
                rwa [heq] at hlast
              · rename_i heq
                rwa [heq] at hlast

/-- Where a list of actions ends without a result, the actions before the one that failed have had
theirs. -/
theorem perform_mapM_error {f : α → Action σ ε β} {as : List α} {s t : σ} {stop : Stop ε}
    (h : (as.mapM f).perform s = (.error stop, t)) :
    ∃ n, ∃ hn : n < as.length, ∃ rs near,
      ((as.take n).mapM f).perform s = (.ok rs, near) ∧
        (f as[n]).perform near = (.error stop, t) := by
  induction as generalizing s with
  | nil => cases h
  | cons a as ih =>
      rw [List.mapM_cons] at h
      rcases perform_bind_error h with hfirst | ⟨r, mid, hfirst, hrest⟩
      · exact ⟨0, Nat.succ_pos _, [], s, rfl, hfirst⟩
      · rcases perform_bind_error hrest with hrest | ⟨rs, last, -, hlast⟩
        · obtain ⟨n, hn, rs, near, hbefore, hfails⟩ := ih hrest
          refine ⟨n + 1, Nat.succ_lt_succ hn, r :: rs, near, ?_, hfails⟩
          rw [List.take_succ_cons, List.mapM_cons, perform_bind_of_ok hfirst,
            perform_bind_of_ok hbefore, perform_pure]
        · cases hlast

/-- If each action of a list comes to a result where `P` holds, and keeps `P`, they all do. -/
theorem perform_mapM_ok {P : σ → Prop} {f : α → Action σ ε β} {as : List α}
    (hf : ∀ a ∈ as, ∀ s, P s → ∃ r t, (f a).perform s = (.ok r, t) ∧ P t) {s : σ} (hs : P s) :
    ∃ rs t, (as.mapM f).perform s = (.ok rs, t) ∧ P t := by
  induction as generalizing s with
  | nil => exact ⟨[], s, rfl, hs⟩
  | cons a as ih =>
      obtain ⟨hfirst, hrest⟩ := List.forall_mem_cons.mp hf
      obtain ⟨r, near, hperform, hnear⟩ := hfirst s hs
      obtain ⟨rs, t, hperforms, ht⟩ := ih hrest hnear
      refine ⟨r :: rs, t, ?_, ht⟩
      rw [List.mapM_cons, perform_bind_of_ok hperform, perform_bind_of_ok hperforms, perform_pure]

theorem makes_ensuring {cleanup : σ → σ} {x : Action σ ε α} (hx : x.Makes R)
    (hc : ∀ s, ReflTransGen R s (cleanup s)) : (x.ensuring cleanup).Makes R :=
  fun s => (hx s).trans (hc _)

end Action

end DebugAgent
