import NfcStack.Lib.Run

/- Monitors of traces. A monitor is a partial step function over the items of a
   trace: `watch` is the state it ends in, `none` once an item breaks the rule
   it stands for. A program that appends to its trace keeps the rule when the
   monitor takes what each step appends (`watch_append`), and never mends a rule
   once broken (`watch_broken`). `run_exact` is the induction for a rule that
   holds along a run exactly when every step of it meets a condition. -/
namespace NfcStack.Lib

variable {σ ι : Type} {next : σ → ι → Option σ} {s t u : σ} {trace items : List ι}

/-- The state of the monitor `next` after `trace`, from `s`. -/
def watch (next : σ → ι → Option σ) (s : σ) (trace : List ι) : Option σ :=
  trace.foldlM next s

theorem watch_append (h : watch next s trace = some t) :
    watch next s (trace ++ items) = watch next t items := by
  rw [watch, List.foldlM_append]
  change (watch next s trace).bind _ = _
  rw [h]
  rfl

theorem watch_append_one {item : ι} (h : watch next s trace = some t)
    (hnext : next t item = some u) : watch next s (trace ++ [item]) = some u := by
  rw [watch_append h]
  change (next t item).bind _ = _
  rw [hnext]
  rfl

theorem watch_broken (h : watch next s trace = none) : watch next s (trace ++ items) = none := by
  rw [watch, List.foldlM_append]
  change (watch next s trace).bind _ = _
  rw [h]
  rfl

theorem run_exact {σ ε τ : Type} {step : σ → ε → Option σ} {ok : σ → ε → Prop} {astep : τ → ε → τ}
    {R : σ → τ → Prop} {Broken : σ → Prop}
    (hkeep : ∀ s a e t, R s a → ok s e → step s e = some t → R t (astep a e))
    (hbreak : ∀ s a e t, R s a → ¬ ok s e → step s e = some t → Broken t)
    (hstay : ∀ s e t, Broken s → step s e = some t → Broken t) :
    ∀ (es : List ε) {s t : σ} {a : τ}, R s a → run step s es = some t →
      (StepsOk step ok s es ∧ R t (es.foldl astep a)) ∨ (¬ StepsOk step ok s es ∧ Broken t) := by
  have hbroken : ∀ (es : List ε) {s t : σ}, Broken s → run step s es = some t → Broken t :=
    fun es _ _ hs hrun => @run_keeps_of_step σ ε step (fun _ _ => True) Broken
      (fun s e t h _ hst => hstay s e t h hst) es _ _ hs (stepsOk_true step es _) hrun
  intro es
  induction es with
  | nil =>
    intro s t a hs hrun
    cases hrun
    exact Or.inl ⟨trivial, hs⟩
  | cons e es ih =>
    intro s t a hs hrun
    rw [run_cons] at hrun
    obtain ⟨u, hu, hrest⟩ := Option.bind_eq_some_iff.mp hrun
    by_cases hok : ok s e
    · rcases ih (hkeep s a e u hs hok hu) hrest with ⟨hsteps, ht⟩ | ⟨hsteps, ht⟩
      · refine Or.inl ⟨⟨hok, fun v hv => ?_⟩, ht⟩
        rw [hu] at hv
        cases hv
        exact hsteps
      · exact Or.inr ⟨fun h => hsteps (h.2 u hu), ht⟩
    · exact Or.inr ⟨fun h => hok h.1, hbroken es (hbreak s a e u hs hok hu) hrest⟩

end NfcStack.Lib
