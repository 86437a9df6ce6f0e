import Mathlib.Data.List.Basic

/-!
# Runs of guarded step functions

A system is a step function `step : σ → ε → Option σ`: the event `e` takes the state `s` to
`step s e`, and is disabled when that is `none`. A run is a list of events. Properties of runs
are stated along the run: of every state it visits, and of every step it takes.

## Main definitions

* `run step s es`: the state after the events `es`
* `Always step I s es`: every state that the run of `es` from `s` visits satisfies `I`
* `Along step ok s es`: every step that the run of `es` from `s` takes satisfies `ok`
* `Steps r q es q'`: a run of the relation `r`
* `counted step f`: the system with a counter, to which a step adds what `f` says of it

## Main results

* `Along.always`: an invariant kept by the steps that satisfy `ok` holds along every run of such
  steps
* `Along.imp`: a condition on the steps that an invariant weakens
* `always_of_step`, `along_of_step`: what every step keeps holds along every run
* `always_iff_along`: the invariant holds along a run exactly when every step satisfies `ok`,
  when a step that does not satisfy it breaks the invariant
* `Always.of_run`: what holds along a run holds of its last state
* `run_simulates`: a simulation of steps is one of runs
-/

namespace Transition

variable {σ ε : Type*} (step : σ → ε → Option σ)

/-- The state after the events `es`, if every event was enabled. -/
def run : σ → List ε → Option σ
  | s, [] => some s
  | s, e :: es => (step s e).bind fun t => run t es

/-- Every state visited by the run of `es` from `s` satisfies `I`. -/
def Always (I : σ → Prop) : σ → List ε → Prop
  | s, [] => I s
  | s, e :: es => I s ∧ ∀ t, step s e = some t → Always I t es

/-- Every step taken by the run of `es` from `s` satisfies `ok`, given the state before it. -/
def Along (ok : σ → ε → Prop) : σ → List ε → Prop
  | _, [] => True
  | s, e :: es => ∀ t, step s e = some t → ok s e ∧ Along ok t es

/-- The system with a counter beside its state. -/
def counted (f : σ → ε → ℕ) (x : σ × ℕ) (e : ε) : Option (σ × ℕ) :=
  (step x.1 e).map fun t => (t, x.2 + f x.1 e)

variable {step} {I J : σ → Prop} {ok : σ → ε → Prop}

theorem along_cons {s t : σ} {e : ε} (h : step s e = some t) (es : List ε) :
    Along step ok s (e :: es) ↔ ok s e ∧ Along step ok t es := by
  simp [Along, h]

theorem along_of_none {s : σ} {e : ε} (h : step s e = none) (es : List ε) :
    Along step ok s (e :: es) := by
  simp [Along, h]

/-- Conditions on the steps that can be tested can be tested along a run. -/
instance decidableAlong [∀ s e, Decidable (ok s e)] :
    ∀ (s : σ) (es : List ε), Decidable (Along step ok s es)
  | _, [] => isTrue trivial
  | s, e :: es =>
    match h : step s e with
    | none => isTrue (along_of_none h es)
    | some t =>
      have := decidableAlong t es
      decidable_of_iff _ (along_cons h es).symm

@[simp] theorem run_nil (s : σ) : run step s [] = some s := rfl

theorem run_cons {s t : σ} {e : ε} (h : step s e = some t) (es : List ε) :
    run step s (e :: es) = run step t es := by
  simp [run, h]

theorem run_append (s : σ) (es fs : List ε) :
    run step s (es ++ fs) = (run step s es).bind fun t => run step t fs := by
  induction es generalizing s with
  | nil => simp
  | cons e es ih =>
    cases h : step s e with
    | none => simp [run, h]
    | some t => simp [run, h, ih]

theorem Always.head {s : σ} {es : List ε} (h : Always step I s es) : I s := by
  cases es with
  | nil => exact h
  | cons e es => exact h.1

theorem Always.mono (hIJ : ∀ s, I s → J s) {s : σ} {es : List ε} (h : Always step I s es) :
    Always step J s es := by
  induction es generalizing s with
  | nil => exact hIJ s h
  | cons e es ih => exact ⟨hIJ s h.1, fun t ht => ih (h.2 t ht)⟩

/-- **The invariant rule**: an invariant kept by every step that satisfies `ok` holds along every
run whose steps all satisfy it. -/
theorem Along.always (hstep : ∀ s e t, I s → ok s e → step s e = some t → I t)
    {s : σ} {es : List ε} (h : Along step ok s es) (hs : I s) : Always step I s es := by
  induction es generalizing s with
  | nil => exact hs
  | cons e es ih =>
    refine ⟨hs, ?_⟩
    intro t ht
    obtain ⟨hok, hrest⟩ := h t ht
    exact ih hrest (hstep s e t hs hok ht)

/-- The steps that satisfy `ok` satisfy a weaker condition `ok'`, along every run on which an
invariant shows it. -/
theorem Along.imp {ok' : σ → ε → Prop}
    (hstep : ∀ s e t, I s → ok s e → step s e = some t → I t)
    (himp : ∀ s e t, I s → ok s e → step s e = some t → ok' s e)
    {s : σ} {es : List ε} (h : Along step ok s es) (hs : I s) : Along step ok' s es := by
  induction es generalizing s with
  | nil => trivial
  | cons e es ih =>
    intro t ht
    obtain ⟨hok, hrest⟩ := h t ht
    exact ⟨himp s e t hs hok ht, ih hrest (hstep s e t hs hok ht)⟩

theorem along_of_forall (h : ∀ s e, ok s e) (s : σ) (es : List ε) : Along step ok s es := by
  induction es generalizing s with
  | nil => trivial
  | cons e es ih => exact fun t _ => ⟨h s e, ih t⟩

/-- An invariant that every step keeps holds along every run. -/
theorem always_of_step (hstep : ∀ s e t, I s → step s e = some t → I t) {s : σ} (hs : I s)
    (es : List ε) : Always step I s es := by
  have hany : Along step (fun _ _ => True) s es := along_of_forall (fun _ _ => trivial) s es
  exact hany.always (fun s e t hI _ hst => hstep s e t hI hst) hs

/-- What an invariant says of the next step holds of every step of a run. -/
theorem along_of_step (hstep : ∀ s e t, I s → step s e = some t → I t)
    (hok : ∀ s e t, I s → step s e = some t → ok s e) {s : σ} (hs : I s) (es : List ε) :
    Along step ok s es := by
  have hany : Along step (fun _ _ => True) s es := along_of_forall (fun _ _ => trivial) s es
  exact hany.imp (fun s e t hI _ hst => hstep s e t hI hst)
    (fun s e t hI _ hst => hok s e t hI hst) hs

/-- A property `I` with an invariant `J` behind it holds along a run exactly when every step of
the run satisfies `ok`: such steps keep `J`, and every other step breaks `I`. -/
theorem always_iff_along (hJ : ∀ s, J s → I s)
    (hstep : ∀ s e t, J s → ok s e → step s e = some t → J t)
    (hbreak : ∀ s e t, J s → ¬ ok s e → step s e = some t → ¬ I t)
    {s : σ} (hs : J s) (es : List ε) : Always step I s es ↔ Along step ok s es := by
  constructor
  · intro h
    induction es generalizing s with
    | nil => trivial
    | cons e es ih =>
      intro t ht
      have hok : ok s e := by
        by_contra hno
        exact hbreak s e t hs hno ht (h.2 t ht).head
      exact ⟨hok, ih (hstep s e t hs hok ht) (h.2 t ht)⟩
  · intro h
    exact (h.always hstep hs).mono hJ

/-- An invariant that every step keeps, with what the step adds to the counter. -/
theorem always_counted {f : σ → ε → ℕ} {I : ℕ → σ → Prop}
    (hstep : ∀ n s e t, I n s → step s e = some t → I (n + f s e) t) {n : ℕ} {s : σ} (hs : I n s)
    (es : List ε) : Always (counted step f) (fun x => I x.2 x.1) (s, n) es := by
  refine always_of_step (I := fun x : σ × ℕ => I x.2 x.1) ?_ hs es
  rintro ⟨s, n⟩ e x hI hx
  obtain ⟨t, ht, rfl⟩ := Option.map_eq_some_iff.mp hx
  exact hstep n s e t hI ht

theorem Always.of_run {s t : σ} {es : List ε} (h : Always step I s es)
    (ht : run step s es = some t) : I t := by
  induction es generalizing s with
  | nil => simp only [run_nil, Option.some.injEq] at ht; exact ht ▸ h
  | cons e es ih =>
    obtain ⟨u, hu, hrest⟩ := Option.bind_eq_some_iff.mp ht
    exact ih (h.2 u hu) hrest

/-! ## Simulation -/

section Simulation

variable {τ δ : Type*}

/-- The runs of a step relation. -/
inductive Steps (r : τ → δ → τ → Prop) : τ → List δ → τ → Prop
  | nil (q : τ) : Steps r q [] q
  | cons {q q' q'' : τ} {d : δ} {ds : List δ} : r q d q' → Steps r q' ds q'' →
      Steps r q (d :: ds) q''

variable {r : τ → δ → τ → Prop}

/-- What every step keeps, a run keeps. -/
theorem Steps.induct {P : τ → Prop} (hstep : ∀ q d q', r q d q' → P q → P q') {q q' : τ}
    {ds : List δ} (h : Steps r q ds q') (hq : P q) : P q' := by
  induction h with
  | nil q => exact hq
  | cons hd _ ih => exact ih (hstep _ _ _ hd hq)

theorem steps_append {q q' : τ} {ds ds' : List δ} :
    Steps r q (ds ++ ds') q' ↔ ∃ u, Steps r q ds u ∧ Steps r u ds' q' := by
  constructor
  · intro h
    induction ds generalizing q with
    | nil => exact ⟨q, .nil q, h⟩
    | cons d ds ih =>
      cases h with
      | cons hd hrest =>
        obtain ⟨u, hu, hu'⟩ := ih hrest
        exact ⟨u, .cons hd hu, hu'⟩
  · rintro ⟨u, hu, hu'⟩
    induction hu with
    | nil q => exact hu'
    | cons hd _ ih => exact .cons hd (ih hu')

/-- **Simulation**: when every step that satisfies `ok` is matched by a step of the relation, so is
every run of such steps. -/
theorem run_simulates {R : σ → τ → Prop} {f : ε → δ}
    (hsim : ∀ s q e t, R s q → ok s e → step s e = some t → ∃ q', r q (f e) q' ∧ R t q')
    {s t : σ} {q : τ} {es : List ε} (hok : Along step ok s es) (hs : R s q)
    (ht : run step s es = some t) : ∃ q', Steps r q (es.map f) q' ∧ R t q' := by
  induction es generalizing s q with
  | nil =>
    simp only [run_nil, Option.some.injEq] at ht
    subst ht
    exact ⟨q, .nil q, hs⟩
  | cons e es ih =>
    obtain ⟨u, hu, hrest⟩ := Option.bind_eq_some_iff.mp ht
    obtain ⟨he, hok'⟩ := hok u hu
    obtain ⟨q₁, hq₁, hR⟩ := hsim s q e u hs he hu
    obtain ⟨q', hq', hR'⟩ := ih hok' hR hrest
    exact ⟨q', .cons hq₁ hq', hR'⟩

end Simulation

end Transition
