import DebugAgent.Action
import Mathlib.Data.List.Forall2

/-!
# Actions in lockstep

Two states may differ in what nobody looks at.  Actions on them then come to the same, up to such
differences: they return results that are alike, or both stop for the same reason, and leave states
that are alike again.  Each way to compose actions keeps this, so that it has to be looked into for
the smallest actions only.
-/

namespace DebugAgent.Action

variable {σ τ ε δ α β γ ζ : Type} {S : σ → τ → Prop} {R : α → β → Prop} {Q : γ → ζ → Prop}

/-- What two actions have come to is alike. -/
inductive Alike (S : σ → τ → Prop) (R : α → β → Prop) :
    Except (Stop ε) α × σ → Except (Stop ε) β × τ → Prop where
  | results {r r' s t} (hstates : S s t) (hresults : R r r') : Alike S R (.ok r, s) (.ok r', t)
  | stops {stop s t} (hstates : S s t) : Alike S R (.error stop, s) (.error stop, t)

theorem Alike.states {x : Except (Stop ε) α × σ} {y : Except (Stop ε) β × τ}
    (h : Alike S R x y) : S x.2 y.2 := by
  cases h with
  | results hstates => exact hstates
  | stops hstates => exact hstates

/-- Results that are alike by being equal. -/
theorem Alike.results_eq {x : Except (Stop ε) α × σ} {y : Except (Stop ε) α × τ}
    (h : Alike S Eq x y) : x.1 = y.1 := by
  cases h with
  | results _ hresults => rw [hresults]
  | stops => rfl

theorem Alike.mono {S' : σ → τ → Prop} {x : Except (Stop ε) α × σ} {y : Except (Stop ε) β × τ}
    (h : Alike S R x y) (hS : ∀ {s t}, S s t → S' s t) : Alike S' R x y := by
  cases h with
  | results hstates hresults => exact .results (hS hstates) hresults
  | stops hstates => exact .stops (hS hstates)

theorem Alike.trans {S : σ → σ → Prop} (hS : ∀ {s t u}, S s t → S t u → S s u)
    {x y z : Except (Stop ε) α × σ} (h : Alike S Eq x y) (h' : Alike S Eq y z) : Alike S Eq x z := by
  cases h with
  | results hstates hresults =>
      cases h' with
      | results hstates' hresults' =>
          exact .results (hS hstates hstates') (hresults.trans hresults')
  | stops hstates =>
      cases h' with
      | stops hstates' => exact .stops (hS hstates hstates')

/-- From states that are alike, two actions come to what is alike. -/
structure Lockstep (S : σ → τ → Prop) (R : α → β → Prop) (x : Action σ ε α) (y : Action τ ε β) :
    Prop where
  alike : ∀ {s t}, S s t → Alike S R (x.perform s) (y.perform t)

/-! ### The smallest actions -/

theorem lockstep_pure {r : α} {r' : β} (h : R r r') :
    Lockstep S R (pure r : Action σ ε α) (pure r') :=
  ⟨fun hs => .results hs h⟩

theorem lockstep_refuse (cause : ε) :
    Lockstep S R (refuse cause : Action σ ε α) (refuse cause) :=
  ⟨fun hs => .stops hs⟩

theorem lockstep_collapse : Lockstep S R (collapse : Action σ ε α) collapse :=
  ⟨fun hs => .stops hs⟩

theorem lockstep_look {f : σ → α} {g : τ → β} (h : ∀ {s t}, S s t → R (f s) (g t)) :
    Lockstep S R (look f : Action σ ε α) (look g) :=
  ⟨fun hs => .results hs (h hs)⟩

theorem lockstep_inspect {f : σ → Except ε α} {g : τ → Except ε α}
    (h : ∀ {s t}, S s t → f s = g t) : Lockstep S Eq (inspect f) (inspect g) := by
  refine ⟨fun {s t} hs => ?_⟩
  rw [perform_inspect, perform_inspect, h hs]
  cases g t with
  | error cause => exact .stops hs
  | ok r => exact .results hs rfl

theorem lockstep_ofExcept (r : Except ε α) : Lockstep S Eq (ofExcept r) (ofExcept r) :=
  lockstep_inspect fun _ => rfl

theorem lockstep_change {f : σ → σ} {g : τ → τ} (h : ∀ {s t}, S s t → S (f s) (g t)) :
    Lockstep S Eq (change f : Action σ ε Unit) (change g) :=
  ⟨fun hs => .results (h hs) rfl⟩

theorem lockstep_update {f : σ → α × σ} {g : τ → β × τ}
    (h : ∀ {s t}, S s t → R (f s).1 (g t).1 ∧ S (f s).2 (g t).2) :
    Lockstep S R (update f : Action σ ε α) (update g) :=
  ⟨fun hs => .results (h hs).2 (h hs).1⟩

theorem lockstep_require (cause : ε) (r : Option α) :
    Lockstep S Eq (require cause r) (require cause r) := by
  cases r with
  | none => exact lockstep_refuse cause
  | some r => exact lockstep_pure rfl

theorem lockstep_expect (r : Option α) :
    Lockstep S Eq (expect r : Action σ ε α) (expect r) := by
  cases r with
  | none => exact lockstep_collapse
  | some r => exact lockstep_pure rfl

theorem lockstep_guard (condition : Bool) (cause : ε) :
    Lockstep S Eq (guard condition cause) (guard condition cause) := by
  cases condition with
  | false => exact lockstep_refuse cause
  | true => exact lockstep_pure rfl

/-! ### Composition -/

theorem lockstep_bind {x : Action σ ε α} {y : Action τ ε β} {f : α → Action σ ε γ}
    {g : β → Action τ ε ζ} (hx : Lockstep S R x y)
    (hf : ∀ {r r'}, R r r' → Lockstep S Q (f r) (g r')) : Lockstep S Q (x >>= f) (y >>= g) := by
  refine ⟨fun {s t} hs => ?_⟩
  rw [perform_bind, perform_bind]
  have hfirst := hx.alike hs
  generalize x.perform s = outcome at hfirst
  generalize y.perform t = outcome' at hfirst
  cases hfirst with
  | results hstates hresults => exact (hf hresults).alike hstates
  | stops hstates => exact .stops hstates

/-- The first actions return the same result. -/
theorem lockstep_bind_eq {x : Action σ ε α} {y : Action τ ε α} {f : α → Action σ ε γ}
    {g : α → Action τ ε ζ} (hx : Lockstep S Eq x y) (hf : ∀ r, Lockstep S Q (f r) (g r)) :
    Lockstep S Q (x >>= f) (y >>= g) :=
  lockstep_bind hx fun {r _} h => h ▸ hf r

theorem lockstep_map {x : Action σ ε α} {y : Action τ ε β} {f : α → γ} {g : β → ζ}
    (hx : Lockstep S R x y) (hf : ∀ {r r'}, R r r' → Q (f r) (g r')) :
    Lockstep S Q (f <$> x) (g <$> y) := by
  refine ⟨fun {s t} hs => ?_⟩
  rw [perform_map, perform_map]
  have hfirst := hx.alike hs
  generalize x.perform s = outcome at hfirst
  generalize y.perform t = outcome' at hfirst
  cases hfirst with
  | results hstates hresults => exact .results hstates (hf hresults)
  | stops hstates => exact .stops hstates

theorem lockstep_map_eq {x : Action σ ε α} {y : Action τ ε α} (f : α → γ)
    (hx : Lockstep S Eq x y) : Lockstep S Eq (f <$> x) (f <$> y) :=
  lockstep_map hx (congrArg f)

theorem lockstep_ite {condition : Prop} [Decidable condition] {x x' : Action σ ε α}
    {y y' : Action τ ε β} (hx : Lockstep S R x y) (hx' : Lockstep S R x' y') :
    Lockstep S R (if condition then x else x') (if condition then y else y') := by
  by_cases h : condition
  · rw [if_pos h, if_pos h]
    exact hx
  · rw [if_neg h, if_neg h]
    exact hx'

theorem lockstep_mapM {ρ π : Type} {P : ρ → π → Prop} {f : ρ → Action σ ε α}
    {g : π → Action τ ε β} (hf : ∀ {a b}, P a b → Lockstep S R (f a) (g b)) {as : List ρ}
    {bs : List π} (h : List.Forall₂ P as bs) :
    Lockstep S (List.Forall₂ R) (as.mapM f) (bs.mapM g) := by
  induction h with
  | nil => exact lockstep_pure .nil
  | cons hfirst _ ih =>
      rw [List.mapM_cons, List.mapM_cons]
      exact lockstep_bind (hf hfirst) fun hr =>
        lockstep_bind ih fun hrs => lockstep_pure (.cons hr hrs)

/-- The results for each of the elements are equal. -/
theorem lockstep_mapM_eq {ρ π : Type} {P : ρ → π → Prop} {f : ρ → Action σ ε α}
    {g : π → Action τ ε α} (hf : ∀ {a b}, P a b → Lockstep S Eq (f a) (g b)) {as : List ρ}
    {bs : List π} (h : List.Forall₂ P as bs) : Lockstep S Eq (as.mapM f) (bs.mapM g) := by
  refine ⟨fun hs => ?_⟩
  have halike := (lockstep_mapM (R := Eq) (P := P) hf h).alike hs
  generalize (as.mapM f).perform _ = outcome at halike
  generalize (bs.mapM g).perform _ = outcome' at halike
  cases halike with
  | results hstates hresults => exact .results hstates (List.forall₂_eq_eq_eq ▸ hresults)
  | stops hstates => exact .stops hstates

/-- The same elements are gone through. -/
theorem lockstep_mapM_same {ρ : Type} {f : ρ → Action σ ε α} {g : ρ → Action τ ε α}
    (hf : ∀ a, Lockstep S Eq (f a) (g a)) (as : List ρ) :
    Lockstep S Eq (as.mapM f) (as.mapM g) :=
  lockstep_mapM_eq (fun {a b} (h : a = b) => h ▸ hf a) (List.forall₂_eq_eq_eq ▸ rfl)

theorem lockstep_forM {ρ π : Type} {P : ρ → π → Prop} {f : ρ → Action σ ε PUnit}
    {g : π → Action τ ε PUnit} (hf : ∀ {a b}, P a b → Lockstep S Eq (f a) (g b)) {as : List ρ}
    {bs : List π} (h : List.Forall₂ P as bs) : Lockstep S Eq (as.forM f) (bs.forM g) := by
  induction h with
  | nil => exact lockstep_pure rfl
  | cons hfirst _ ih =>
      exact lockstep_bind_eq (hf hfirst) fun _ => ih

/-! ### Refusals and clean-up -/

/-- The same refusal, or results that are alike. -/
inductive Agree (R : α → β → Prop) : Except ε α → Except ε β → Prop where
  | ok {r r'} (h : R r r') : Agree R (.ok r) (.ok r')
  | error (cause : ε) : Agree R (.error cause) (.error cause)

theorem Agree.eq {r r' : Except ε α} (h : Agree Eq r r') : r = r' := by
  cases h with
  | ok h => rw [h]
  | error => rfl

theorem lockstep_attempt {x : Action σ ε α} {y : Action τ ε β} (hx : Lockstep S R x y) :
    Lockstep S (Agree R) (x.attempt : Action σ δ (Except ε α)) y.attempt := by
  refine ⟨fun {s t} hs => ?_⟩
  have halike := hx.alike hs
  simp only [attempt, perform_of]
  generalize x.perform s = outcome at halike
  generalize y.perform t = outcome' at halike
  cases halike with
  | results hstates hresults => exact .results hstates (.ok hresults)
  | @stops stop _ _ hstates =>
      cases stop with
      | refused cause => exact .results hstates (.error cause)
      | broken => exact .stops hstates

theorem lockstep_attempt_eq {x : Action σ ε α} {y : Action τ ε α} (hx : Lockstep S Eq x y) :
    Lockstep S Eq (x.attempt : Action σ δ (Except ε α)) y.attempt := by
  refine ⟨fun {s t} hs => ?_⟩
  have halike := (lockstep_attempt (δ := δ) hx).alike hs
  generalize x.attempt.perform s = outcome at halike
  generalize y.attempt.perform t = outcome' at halike
  cases halike with
  | results hstates hresults => exact .results hstates hresults.eq
  | stops hstates => exact .stops hstates

theorem lockstep_mapCause {f : ε → δ} {x : Action σ ε α} {y : Action τ ε β}
    (hx : Lockstep S R x y) : Lockstep S R (x.mapCause f) (y.mapCause f) := by
  refine ⟨fun {s t} hs => ?_⟩
  have halike := hx.alike hs
  simp only [mapCause, perform_of]
  generalize x.perform s = outcome at halike
  generalize y.perform t = outcome' at halike
  cases halike with
  | results hstates hresults => exact .results hstates hresults
  | @stops stop _ _ hstates => cases stop <;> exact .stops hstates

theorem lockstep_ensuring {f : σ → σ} {g : τ → τ} {x : Action σ ε α} {y : Action τ ε β}
    (hx : Lockstep S R x y) (h : ∀ {s t}, S s t → S (f s) (g t)) :
    Lockstep S R (x.ensuring f) (y.ensuring g) := by
  refine ⟨fun {s t} hs => ?_⟩
  rw [perform_ensuring, perform_ensuring]
  have halike := hx.alike hs
  generalize x.perform s = outcome at halike
  generalize y.perform t = outcome' at halike
  cases halike with
  | results hstates hresults => exact .results (h hstates) hresults
  | stops hstates => exact .stops (h hstates)

/-- Actions on parts of two states, which are alike where their parts are and the rest is. -/
theorem lockstep_within {κ ι : Type} {T : κ → ι → Prop} {part : κ → σ} {put : κ → σ → κ}
    {part' : ι → τ} {put' : ι → τ → ι} (hpart : ∀ {k i}, T k i → S (part k) (part' i))
    (hput : ∀ {k i s t}, T k i → S s t → T (put k s) (put' i t)) {x : Action σ ε α}
    {y : Action τ ε β} (hx : Lockstep S R x y) :
    Lockstep T R (x.within part put) (y.within part' put') := by
  refine ⟨fun {k i} hk => ?_⟩
  rw [perform_within, perform_within]
  have halike := hx.alike (hpart hk)
  generalize x.perform (part k) = outcome at halike
  generalize y.perform (part' i) = outcome' at halike
  cases halike with
  | results hstates hresults => exact .results (hput hk hstates) hresults
  | stops hstates => exact .stops (hput hk hstates)

end DebugAgent.Action
