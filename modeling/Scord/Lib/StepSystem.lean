/-
  Scord.Lib.StepSystem

  Runs of a partial step function `step : σ → ε → Option σ`, where `none` says
  that the event is not enabled in the state.

  Two views of a run are kept apart: `Always` speaks about the states it goes
  through, `StepsMeet` about the (state, event) pairs it takes.  The rule
  `always_iff_stepsMeet` connects them: where one step keeps a good state good
  exactly when it meets a condition, a whole run stays good exactly when all of
  its steps meet that condition.
-/

namespace StepSystem

variable {σ ε : Type _}

/-- The state after the events `es`, when all of them are enabled in turn. -/
def run (step : σ → ε → Option σ) : σ → List ε → Option σ
  | s, [] => some s
  | s, e :: es => (step s e).bind fun s' => run step s' es

/-- Some sequence of events leads from `s₀` to `s`. -/
def Reachable (step : σ → ε → Option σ) (s₀ s : σ) : Prop :=
  ∃ es, run step s₀ es = some s

/-- `Q` holds in every state that the events `es` lead through, the first one
    included. -/
def Always (step : σ → ε → Option σ) (Q : σ → Prop) : σ → List ε → Prop
  | s, [] => Q s
  | s, e :: es => Q s ∧ ∀ s', step s e = some s' → Always step Q s' es

/-- Every enabled step that the events `es` take meets the condition `C` on the
    event and the state before it. -/
def StepsMeet (step : σ → ε → Option σ) (C : σ → ε → Prop) : σ → List ε → Prop
  | _, [] => True
  | s, e :: es => ∀ s', step s e = some s' → C s e ∧ StepsMeet step C s' es

/-- A step function that answers, as one that keeps a log of the events and the
    answers to them, the latest one first. -/
def logged {α : Type _} (step : σ → ε → Option (σ × α)) :
    σ × List (ε × α) → ε → Option (σ × List (ε × α))
  | (s, log), e => (step s e).map fun r => (r.1, (e, r.2) :: log)

/-- In a log with the latest entry first: one with `P`, and none with `Q` since. -/
def Since {α : Type _} (P Q : α → Prop) (log : List α) : Prop :=
  ∃ later e earlier, log = later ++ e :: earlier ∧ P e ∧ ∀ f ∈ later, ¬ Q f

theorem not_since_nil {α : Type _} {P Q : α → Prop} : ¬ Since P Q [] := by
  rintro ⟨later, e, earlier, heq, -⟩
  exact absurd heq.symm (by simp)

/-- The latest entry decides, or it is neither and the rest does. -/
theorem since_cons {α : Type _} {P Q : α → Prop} {e : α} {log : List α} :
    Since P Q (e :: log) ↔ P e ∨ ¬ Q e ∧ Since P Q log := by
  refine ⟨?_, ?_⟩
  · rintro ⟨later, f, earlier, heq, hp, hq⟩
    cases later with
    | nil =>
        obtain ⟨rfl, -⟩ := List.cons.inj heq
        exact Or.inl hp
    | cons g later =>
        obtain ⟨rfl, rfl⟩ := List.cons.inj heq
        exact Or.inr ⟨hq e List.mem_cons_self,
          later, f, earlier, rfl, hp, fun h hh => hq h (List.mem_cons_of_mem _ hh)⟩
  · rintro (hp | ⟨hq, later, f, earlier, rfl, hp, hlater⟩)
    · exact ⟨[], e, log, rfl, hp, fun f hf => absurd hf List.not_mem_nil⟩
    · refine ⟨e :: later, f, earlier, rfl, hp, fun g hg => ?_⟩
      rcases List.mem_cons.mp hg with rfl | hg
      · exact hq
      · exact hlater g hg

section Rules

variable {step : σ → ε → Option σ}

@[simp] theorem run_nil (s : σ) : run step s [] = some s := rfl

theorem run_cons (s : σ) (e : ε) (es : List ε) :
    run step s (e :: es) = (step s e).bind fun s' => run step s' es := rfl

theorem Reachable.refl (s : σ) : Reachable step s s := ⟨[], rfl⟩

/-- The events of a run taken one after the other: `es` first, then `fs`. -/
theorem run_append (s : σ) (es fs : List ε) :
    run step s (es ++ fs) = (run step s es).bind fun s' => run step s' fs := by
  induction es generalizing s with
  | nil => rfl
  | cons e es ih =>
      rw [List.cons_append, run_cons, run_cons]
      cases step s e with
      | none => rfl
      | some s' => exact ih s'

/-- One more enabled step reaches one more state. -/
theorem Reachable.tail {s₀ s s' : σ} {e : ε} (h : Reachable step s₀ s)
    (hs : step s e = some s') : Reachable step s₀ s' := by
  obtain ⟨es, hes⟩ := h
  -- the event is appended to the events so far
  refine ⟨es ++ [e], ?_⟩
  rw [run_append, hes]
  simp [run_cons, hs]

/-- **The invariant rule.**  What holds at the start and is kept by every step
    holds in every reachable state. -/
theorem Reachable.invariant {I : σ → Prop} {s₀ s : σ} (h : Reachable step s₀ s)
    (hinit : I s₀)
    (hstep : ∀ s e s', I s → step s e = some s' → I s') : I s := by
  obtain ⟨es, hes⟩ := h
  induction es generalizing s₀ with
  | nil =>
      rw [run_nil, Option.some.injEq] at hes
      exact hes ▸ hinit
  | cons e es ih =>
      rw [run_cons] at hes
      obtain ⟨s', hs', hrest⟩ := Option.bind_eq_some_iff.mp hes
      exact ih (hstep s₀ e s' hinit hs') hrest

/-- **The counting rule.**  What holds of the start and 0, and of the next state and
    the next number, holds of the last state and the number of steps. -/
theorem run_counted {I : Nat → σ → Prop} {n : Nat} {s s' : σ} {es : List ε}
    (h : run step s es = some s') (hinit : I n s)
    (hstep : ∀ n s e s', I n s → step s e = some s' → I (n + 1) s') : I (n + es.length) s' := by
  induction es generalizing n s with
  | nil =>
      rw [run_nil, Option.some.injEq] at h
      exact h ▸ hinit
  | cons e es ih =>
      rw [run_cons] at h
      obtain ⟨t, ht, hrest⟩ := Option.bind_eq_some_iff.mp h
      have hlast := ih hrest (hstep n s e t hinit ht)
      rwa [List.length_cons, show n + (es.length + 1) = n + 1 + es.length from by omega]

theorem logged_eq_some {α : Type _} {step : σ → ε → Option (σ × α)} {s : σ}
    {log : List (ε × α)} {e : ε} {t : σ × List (ε × α)} :
    logged step (s, log) e = some t ↔
      ∃ s' a, step s e = some (s', a) ∧ t = (s', (e, a) :: log) := by
  unfold logged
  rw [Option.map_eq_some_iff]
  refine ⟨?_, ?_⟩
  · rintro ⟨⟨s', a⟩, hs, rfl⟩
    exact ⟨s', a, hs, rfl⟩
  · rintro ⟨s', a, hs, rfl⟩
    exact ⟨(s', a), hs, rfl⟩

/-- **The simulation rule.**  Where every step of one system, seen through `abs`,
    is the step of another on the same event, so is every run. -/
theorem Reachable.simulates {τ : Type _} {step' : τ → ε → Option τ} (abs : σ → τ)
    {s₀ s : σ} (h : Reachable step s₀ s)
    (hsim : ∀ t e t', Reachable step' (abs s₀) (abs t) → step t e = some t' →
      step' (abs t) e = some (abs t')) :
    Reachable step' (abs s₀) (abs s) := by
  refine h.invariant (I := fun t => Reachable step' (abs s₀) (abs t)) (.refl _) ?_
  intro t e t' hreach ht
  exact hreach.tail (hsim t e t' hreach ht)

/-- **The projection rule.**  Where every step from a state with `I`, seen through `abs`,
    is a step of another system on the event as `view` shows it, or neither is enabled,
    so is every run from such a state, as long as the steps keep `I`. -/
theorem run_map {τ φ : Type _} {step' : τ → φ → Option τ} {I : σ → Prop} (abs : σ → τ)
    (view : ε → φ) (hkeeps : ∀ s e s', I s → step s e = some s' → I s')
    (hstep : ∀ s e, I s → (step s e).map abs = step' (abs s) (view e)) {s : σ} (hs : I s)
    (es : List ε) : (run step s es).map abs = run step' (abs s) (es.map view) := by
  induction es generalizing s with
  | nil => rfl
  | cons e es ih =>
      rw [List.map_cons, run_cons, run_cons, ← hstep s e hs]
      cases h : step s e with
      | none => rfl
      | some s' => exact ih (hkeeps s e s' hs h)

/-- The projection rule for steps with answers, which the logs show as they are. -/
theorem run_logged_map {α τ φ : Type _} {step : σ → ε → Option (σ × α)}
    {step' : τ → φ → Option (τ × α)} (abs : σ → τ) (view : ε → φ)
    (hstep : ∀ s e, (step s e).map (Prod.map abs id) = step' (abs s) (view e)) (s : σ)
    (es : List ε) :
    (run (logged step) (s, []) es).map (fun t => (abs t.1, t.2.map (Prod.map view id)))
      = run (logged step') (abs s, []) (es.map view) := by
  have hlogged : ∀ t e, (logged step t e).map
      (fun t => (abs t.1, t.2.map (Prod.map view id)))
        = logged step' (abs t.1, t.2.map (Prod.map view id)) (view e) := by
    rintro ⟨s, log⟩ e
    show ((step s e).map _).map _ = (step' (abs s) (view e)).map _
    rw [← hstep]
    cases step s e <;> rfl
  exact run_map (I := fun _ => True) _ view (fun _ _ _ _ _ => trivial)
    (fun t e _ => hlogged t e) trivial es

/-- **The exact-condition rule.**  `I` is kept by every step.  If, from a state
    with `I` and `Q`, a step answers as `P` wants and keeps `Q` exactly when it
    meets `C`, then a run answers as `P` wants and stays in `Q` exactly when all
    of its steps meet `C`. -/
theorem always_iff_stepsMeet {I Q : σ → Prop} {P C : σ → ε → Prop}
    (hI : ∀ s e s', I s → step s e = some s' → I s')
    (hQ : ∀ s e s', I s → Q s → step s e = some s' → (P s e ∧ Q s' ↔ C s e))
    (es : List ε) (s : σ) (hi : I s) (hq : Q s) :
    StepsMeet step P s es ∧ Always step Q s es ↔ StepsMeet step C s es := by
  induction es generalizing s with
  | nil => simp [StepsMeet, Always, hq]
  | cons e es ih =>
      simp only [StepsMeet, Always]
      refine ⟨?_, ?_⟩
      · rintro ⟨hp, -, hall⟩ s' hs'
        -- the next state is good: it is the first one of the rest
        have hq' : Q s' := by
          have h := hall s' hs'
          cases es with
          | nil => exact h
          | cons e' es' => exact h.1
        have hpe := (hp s' hs').1
        exact ⟨(hQ s e s' hi hq hs').mp ⟨hpe, hq'⟩,
          (ih s' (hI s e s' hi hs') hq').mp ⟨(hp s' hs').2, hall s' hs'⟩⟩
      · intro hc
        have hnext : ∀ s', step s e = some s' →
            (P s e ∧ Q s') ∧ StepsMeet step P s' es ∧ Always step Q s' es := by
          intro s' hs'
          have hpq := (hQ s e s' hi hq hs').mpr (hc s' hs').1
          exact ⟨hpq, (ih s' (hI s e s' hi hs') hpq.2).mpr (hc s' hs').2⟩
        exact ⟨fun s' hs' => ⟨(hnext s' hs').1.1, (hnext s' hs').2.1⟩, hq,
          fun s' hs' => (hnext s' hs').2.2⟩

/-- `StepsMeet` of a condition that always holds. -/
theorem StepsMeet.cons {C : σ → ε → Prop} {s s' : σ} {e : ε} {es : List ε}
    (hs : step s e = some s') (hc : C s e) (h : StepsMeet step C s' es) :
    StepsMeet step C s (e :: es) := by
  intro t ht
  obtain rfl := Option.some.inj (hs.symm.trans ht)
  exact ⟨hc, h⟩

theorem stepsMeet_true (s : σ) (es : List ε) :
    StepsMeet step (fun _ _ => True) s es := by
  induction es generalizing s with
  | nil => trivial
  | cons e es ih => exact fun s' _ => ⟨trivial, ih s'⟩

/-- The exact-condition rule for a property of steps alone: where a step is as
    `P` wants exactly when it meets `C`, a run is. -/
theorem stepsMeet_congr {P C : σ → ε → Prop}
    (h : ∀ s e s', step s e = some s' → (P s e ↔ C s e)) (es : List ε) (s : σ) :
    StepsMeet step P s es ↔ StepsMeet step C s es := by
  induction es generalizing s with
  | nil => exact Iff.rfl
  | cons e es ih =>
      simp only [StepsMeet]
      refine forall_congr' fun s' => forall_congr' fun hs => ?_
      exact and_congr (h s e s' hs) (ih s')

/-- The exact-condition rule for a property of states alone. -/
theorem always_iff {I Q : σ → Prop} {C : σ → ε → Prop}
    (hI : ∀ s e s', I s → step s e = some s' → I s')
    (hQ : ∀ s e s', I s → Q s → step s e = some s' → (Q s' ↔ C s e))
    (es : List ε) (s : σ) (hi : I s) (hq : Q s) :
    Always step Q s es ↔ StepsMeet step C s es := by
  have h := always_iff_stepsMeet (P := fun _ _ => True) hI
    (fun s e s' hi hq hs => by simpa using hQ s e s' hi hq hs) es s hi hq
  simpa [stepsMeet_true] using h

theorem Always.mono {Q Q' : σ → Prop} {s : σ} {es : List ε} (h : Always step Q s es)
    (hQ : ∀ t, Q t → Q' t) : Always step Q' s es := by
  induction es generalizing s with
  | nil => exact hQ s h
  | cons e es ih => exact ⟨hQ s h.1, fun s' hs' => ih (h.2 s' hs')⟩

/-- **The conditional invariant rule.**  An invariant that every step that meets
    `C` keeps holds in every state of a run whose steps all meet `C`. -/
theorem StepsMeet.always {C : σ → ε → Prop} {I : σ → Prop} {s : σ} {es : List ε}
    (h : StepsMeet step C s es) (hinit : I s)
    (hstep : ∀ s e s', I s → C s e → step s e = some s' → I s') : Always step I s es := by
  induction es generalizing s with
  | nil => exact hinit
  | cons e es ih =>
      refine ⟨hinit, fun s' hs' => ?_⟩
      obtain ⟨hc, hrest⟩ := h s' hs'
      exact ih hrest (hstep s e s' hinit hc hs')

/-- **The progress rule.**  A run whose steps all meet `C` is not stuck, where an
    invariant of such steps says that every event is enabled. -/
theorem StepsMeet.exists_run {C : σ → ε → Prop} {I : σ → Prop} {s : σ} {es : List ε}
    (h : StepsMeet step C s es) (hinit : I s)
    (hprogress : ∀ s e, I s → ∃ s', step s e = some s')
    (hstep : ∀ s e s', I s → C s e → step s e = some s' → I s') :
    ∃ s', run step s es = some s' := by
  induction es generalizing s with
  | nil => exact ⟨s, rfl⟩
  | cons e es ih =>
      obtain ⟨t, ht⟩ := hprogress s e hinit
      obtain ⟨hc, hrest⟩ := h t ht
      obtain ⟨s', hs'⟩ := ih hrest (hstep s e t hinit hc ht)
      refine ⟨s', ?_⟩
      rw [run_cons, ht]
      exact hs'

/-- What holds in every state of a run holds in its last state. -/
theorem Always.last {Q : σ → Prop} {s s' : σ} {es : List ε}
    (h : Always step Q s es) (hr : run step s es = some s') : Q s' := by
  induction es generalizing s with
  | nil =>
      rw [run_nil, Option.some.injEq] at hr
      exact hr ▸ h
  | cons e es ih =>
      rw [run_cons] at hr
      obtain ⟨t, ht, hrest⟩ := Option.bind_eq_some_iff.mp hr
      exact ih (h.2 t ht) hrest

/-- Events that the view does not show leave the view as it is. -/
theorem view_of_hidden {β : Type _} {view : σ → β} {visible : ε → Bool}
    (hhidden : ∀ s e s', visible e = false → step s e = some s' → view s' = view s)
    {es : List ε} (hes : ∀ e ∈ es, visible e = false) {s s' : σ}
    (hr : run step s es = some s') : view s' = view s := by
  induction es generalizing s with
  | nil =>
      rw [run_nil, Option.some.injEq] at hr
      rw [hr]
  | cons e es ih =>
      rw [run_cons] at hr
      obtain ⟨t, ht, hrest⟩ := Option.bind_eq_some_iff.mp hr
      have hrest' := ih (fun f hf => hes f (List.mem_cons_of_mem _ hf)) hrest
      rw [hrest', hhidden s e t (hes e List.mem_cons_self) ht]

/-- **The unwinding rule.**  If hidden events leave the view as it is, and a
    visible event does the same to every state with the same view, then two runs
    that take the same visible events end with the same view. -/
theorem view_eq_of_filter_eq {β : Type _} (view : σ → β) {visible : ε → Bool}
    (hhidden : ∀ s e s', visible e = false → step s e = some s' → view s' = view s)
    (hvisible : ∀ s t e s' t', view s = view t → step s e = some s' → step t e = some t' →
      view s' = view t')
    {es fs : List ε} (hfilter : es.filter visible = fs.filter visible) {s t s' t' : σ}
    (hview : view s = view t) (hs : run step s es = some s') (ht : run step t fs = some t') :
    view s' = view t' := by
  induction es generalizing s fs t with
  | nil =>
      rw [run_nil, Option.some.injEq] at hs
      have hfs : ∀ e ∈ fs, visible e = false := by
        intro e he
        have hnot := List.filter_eq_nil_iff.mp hfilter.symm e he
        simpa using hnot
      rw [← hs, hview, view_of_hidden hhidden hfs ht]
  | cons e es ih =>
      rw [run_cons] at hs
      obtain ⟨u, hu, hrest⟩ := Option.bind_eq_some_iff.mp hs
      cases he : visible e with
      | false =>
          rw [List.filter_cons_of_neg (by simp [he])] at hfilter
          exact ih hfilter ((hhidden s e u he hu).trans hview) hrest ht
      | true =>
          rw [List.filter_cons_of_pos he] at hfilter
          -- the other run comes to the same event, after hidden ones
          obtain ⟨before, after, rfl, hbefore, -, hafter⟩ :=
            List.filter_eq_cons_iff.mp hfilter.symm
          rw [run_append] at ht
          obtain ⟨v, hv, ht⟩ := Option.bind_eq_some_iff.mp ht
          rw [run_cons] at ht
          obtain ⟨w, hw, ht⟩ := Option.bind_eq_some_iff.mp ht
          have hsame : view v = view t := by
            apply view_of_hidden hhidden ?_ hv
            intro f hf
            have hnot := hbefore f hf
            simpa using hnot
          have huw : view u = view w := hvisible s v e u w (hview.trans hsame.symm) hu hw
          exact ih hafter.symm huw hrest ht

end Rules

end StepSystem
