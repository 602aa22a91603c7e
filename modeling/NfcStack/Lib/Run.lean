import Mathlib

/- Runs of a partial step function. `step s e = none` is a step that does not
   return (it faults or loops), so a run is the monadic fold of `step`, and a
   theorem about a run states that it returns as well as what it returns.
   `StepsOk` puts a condition on every step of a run, each read in the state
   the step starts from. `run_path`, with its special cases `run_simulates` and
   `run_invariant`, `run_keeps_of_step` and `run_adds`, for runs that need not
   return, `path_keeps`, for paths, and `stepsOk_imp` and `stepsOk_of_events`, for
   conditions, are the only inductions over runs: every result about runs supplies
   what one step does. -/
namespace NfcStack.Lib

variable {σ ε : Type}

def run (step : σ → ε → Option σ) (s : σ) (es : List ε) : Option σ :=
  es.foldlM step s

/-- Every step of the run from `s` over `es` starts in a state that meets `ok`. -/
def StepsOk (step : σ → ε → Option σ) (ok : σ → ε → Prop) : σ → List ε → Prop
  | _, [] => True
  | s, e :: es => ok s e ∧ ∀ t, step s e = some t → StepsOk step ok t es

instance StepsOk.decidable (step : σ → ε → Option σ) (ok : σ → ε → Prop)
    [∀ s e, Decidable (ok s e)] : ∀ (es : List ε) (s : σ), Decidable (StepsOk step ok s es)
  | [], _ => .isTrue trivial
  | e :: es, s =>
    match h : step s e with
    | none => decidable_of_iff (ok s e) (by simp [StepsOk, h])
    | some t =>
      have := StepsOk.decidable step ok es t
      decidable_of_iff (ok s e ∧ StepsOk step ok t es) (by simp [StepsOk, h])

theorem stepsOk_true (step : σ → ε → Option σ) (es : List ε) :
    ∀ s, StepsOk step (fun _ _ => True) s es := by
  induction es with
  | nil => exact fun _ => trivial
  | cons e es ih => exact fun _ => ⟨trivial, fun t _ => ih t⟩

@[simp] theorem run_nil (step : σ → ε → Option σ) (s : σ) : run step s [] = some s := rfl

theorem run_cons (step : σ → ε → Option σ) (s : σ) (e : ε) (es : List ε) :
    run step s (e :: es) = (step s e).bind fun t => run step t es := rfl

/-- The events `es` can lead from `a` to `b` in a model whose steps need not be functions. -/
def Path {τ : Type} (rel : τ → ε → τ → Prop) : τ → List ε → τ → Prop
  | a, [], b => b = a
  | a, e :: es, b => ∃ c, rel a e c ∧ Path rel c es b

/-- If every allowed step is matched by a step of an abstract model, every
allowed run is matched by a path in it; and the run returns. -/
theorem run_path {τ : Type} {step : σ → ε → Option σ} {ok : σ → ε → Prop} {rel : τ → ε → τ → Prop}
    {R : σ → τ → Prop}
    (hstep : ∀ s a e, R s a → ok s e → ∃ t b, step s e = some t ∧ rel a e b ∧ R t b) :
    ∀ (es : List ε) (s : σ) (a : τ), R s a → StepsOk step ok s es →
      ∃ t b, run step s es = some t ∧ Path rel a es b ∧ R t b := by
  intro es
  induction es with
  | nil => intro s a hs _; exact ⟨s, a, rfl, rfl, hs⟩
  | cons e es ih =>
    intro s a hs hok
    obtain ⟨he, hrest⟩ := hok
    obtain ⟨t, b, ht, hrel, hR⟩ := hstep s a e hs he
    obtain ⟨u, c, hu, hpath, hR'⟩ := ih t b hR (hrest t ht)
    exact ⟨u, c, by rw [run_cons, ht]; exact hu, ⟨b, hrel, hpath⟩, hR'⟩

theorem path_keeps {τ : Type} {rel : τ → ε → τ → Prop} {ok : ε → Prop} {Inv : τ → Prop}
    (hstep : ∀ a e b, ok e → Inv a → rel a e b → Inv b) :
    ∀ (es : List ε) {a b : τ}, (∀ e ∈ es, ok e) → Inv a → Path rel a es b → Inv b := by
  intro es
  induction es with
  | nil =>
    intro a b _ ha h
    obtain rfl : b = a := h
    exact ha
  | cons e es ih =>
    intro a b hok ha h
    obtain ⟨c, hrel, hrest⟩ := h
    exact ih (fun x hx => hok x (List.mem_cons_of_mem _ hx))
      (hstep a e c (hok e List.mem_cons_self) ha hrel) hrest

theorem path_foldl {τ : Type} {astep : τ → ε → τ} (es : List ε) {a b : τ}
    (h : Path (fun a e b => b = astep a e) a es b) : b = es.foldl astep a := by
  induction es generalizing a with
  | nil => exact h
  | cons e es ih =>
    obtain ⟨c, rfl, h⟩ := h
    exact ih h

theorem run_simulates {τ : Type} {step : σ → ε → Option σ} {ok : σ → ε → Prop} {astep : τ → ε → τ}
    {R : σ → τ → Prop}
    (hstep : ∀ s a e, R s a → ok s e → ∃ t, step s e = some t ∧ R t (astep a e))
    (es : List ε) (s : σ) (a : τ) (hs : R s a) (hok : StepsOk step ok s es) :
    ∃ t, run step s es = some t ∧ R t (es.foldl astep a) := by
  obtain ⟨t, b, ht, hpath, hR⟩ := @run_path σ ε τ step ok (fun a e b => b = astep a e) R
    (fun s a e h he => by
      obtain ⟨t, ht, hR⟩ := hstep s a e h he
      exact ⟨t, _, ht, rfl, hR⟩) es s a hs hok
  rw [path_foldl es hpath] at hR
  exact ⟨t, ht, hR⟩

/-- What every allowed step preserves, every allowed run preserves; and the run
returns. -/
theorem run_invariant {step : σ → ε → Option σ} {ok : σ → ε → Prop} {Inv : σ → Prop}
    (hstep : ∀ s e, Inv s → ok s e → ∃ t, step s e = some t ∧ Inv t) (es : List ε) (s : σ)
    (hs : Inv s) (hok : StepsOk step ok s es) : ∃ t, run step s es = some t ∧ Inv t :=
  @run_simulates σ ε Unit step ok (fun _ _ => ()) (fun s _ => Inv s)
    (fun s _ e h he => hstep s e h he) es s () hs hok

theorem stepsOk_append {step : σ → ε → Option σ} {ok : σ → ε → Prop} (es es' : List ε) :
    ∀ {s : σ}, StepsOk step ok s (es ++ es') →
      StepsOk step ok s es ∧ ∀ t, run step s es = some t → StepsOk step ok t es' := by
  induction es with
  | nil =>
    intro s h
    refine ⟨trivial, fun t ht => ?_⟩
    cases ht
    exact h
  | cons e es ih =>
    intro s h
    refine ⟨⟨h.1, fun t ht => (ih (h.2 t ht)).1⟩, fun t ht => ?_⟩
    rw [run_cons] at ht
    obtain ⟨u, hu, hrest⟩ := Option.bind_eq_some_iff.mp ht
    exact (ih (h.2 u hu)).2 t hrest

theorem run_keeps_of_step {step : σ → ε → Option σ} {ok : σ → ε → Prop} {Inv : σ → Prop}
    (hstep : ∀ s e t, Inv s → ok s e → step s e = some t → Inv t) :
    ∀ (es : List ε) {s t : σ}, Inv s → StepsOk step ok s es → run step s es = some t → Inv t := by
  intro es
  induction es with
  | nil =>
    intro s t hs _ hrun
    cases hrun
    exact hs
  | cons e es ih =>
    intro s t hs hok hrun
    rw [run_cons] at hrun
    obtain ⟨u, hu, hrest⟩ := Option.bind_eq_some_iff.mp hrun
    exact ih (hstep s e u hs hok.1 hu) (hok.2 u hu) hrest

theorem run_adds {step : σ → ε → Option σ} {ok : σ → ε → Prop} {Inv : σ → Prop} {m : σ → Nat}
    {g : ε → Nat}
    (hstep : ∀ s e t, Inv s → ok s e → step s e = some t → Inv t ∧ m t = m s + g e) :
    ∀ (es : List ε) {s t : σ}, Inv s → StepsOk step ok s es → run step s es = some t →
      Inv t ∧ m t = m s + (es.map g).sum := by
  intro es
  induction es with
  | nil =>
    intro s t hs _ hrun
    cases hrun
    exact ⟨hs, by simp⟩
  | cons e es ih =>
    intro s t hs hok hrun
    rw [run_cons] at hrun
    obtain ⟨u, hu, hrest⟩ := Option.bind_eq_some_iff.mp hrun
    obtain ⟨hinv, hadd⟩ := hstep s e u hs hok.1 hu
    obtain ⟨ht, hsum⟩ := ih hinv (hok.2 u hu) hrest
    refine ⟨ht, ?_⟩
    rw [hsum, hadd, List.map_cons, List.sum_cons]
    omega

/-- A condition that follows from another one where an invariant holds is met by every run
that meets the other. -/
theorem stepsOk_imp {step : σ → ε → Option σ} {P Q : σ → ε → Prop} {Inv : σ → Prop}
    (himp : ∀ s e, Inv s → P s e → Q s e)
    (hkeep : ∀ s e t, Inv s → P s e → step s e = some t → Inv t) :
    ∀ (es : List ε) (s : σ), Inv s → StepsOk step P s es → StepsOk step Q s es := by
  intro es
  induction es with
  | nil => exact fun _ _ _ => trivial
  | cons e es ih =>
    rintro s hs ⟨hP, hrest⟩
    exact ⟨himp s e hs hP, fun t ht => ih t (hkeep s e t hs hP ht) (hrest t ht)⟩

theorem stepsOk_of_events {step : σ → ε → Option σ} {ok : ε → Prop} (es : List ε) :
    ∀ s, (∀ e ∈ es, ok e) → StepsOk step (fun _ e => ok e) s es := by
  induction es with
  | nil => exact fun _ _ => trivial
  | cons e es ih =>
    intro s h
    exact ⟨h e List.mem_cons_self, fun t _ => ih t fun e he => h e (List.mem_cons_of_mem _ he)⟩

theorem stepsOk_iff {step : σ → ε → Option σ} {P Q : σ → ε → Prop} {Inv : σ → Prop}
    (hiff : ∀ s e, Inv s → (P s e ↔ Q s e))
    (hkeep : ∀ s e t, Inv s → P s e → step s e = some t → Inv t) (es : List ε) (s : σ) (hs : Inv s) :
    StepsOk step P s es ↔ StepsOk step Q s es := by
  constructor
  · exact stepsOk_imp (fun s e hs => (hiff s e hs).mp) hkeep es s hs
  · exact stepsOk_imp (fun s e hs => (hiff s e hs).mpr)
      (fun s e t hs hQ ht => hkeep s e t hs ((hiff s e hs).mpr hQ) ht) es s hs

end NfcStack.Lib
