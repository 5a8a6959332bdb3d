/-
  File:      Rtx/Lib/Runs.lean
  Subject:   Runs of a partial step function, and what an invariant says about them.

  `step s e` is the state after the event `e`, or `none` when the step gets stuck. `Allowed` says
  that every event of a run satisfies its side condition in the state in which it happens. A
  property that every allowed step keeps holds in the state an allowed run reaches
  (`run_reached`); if under it no allowed step gets stuck, no allowed run does (`run_inv`). If every
  allowed step is a step of another system, every allowed run is one of its runs (`run_simulates`).
-/
namespace Rtx.Lib

universe u v w x

variable {σ : Type u} {ε : Type v} (step : σ → ε → Option σ) (ok ok' : σ → ε → Prop)

/-- The state after the events of a list. -/
def run : σ → List ε → Option σ
  | s, [] => some s
  | s, e :: es =>
      match step s e with
      | none => none
      | some s' => run s' es

/-- Every event of the list satisfies `ok` in the state in which it happens. -/
def Allowed : σ → List ε → Prop
  | _, [] => True
  | s, e :: es =>
      ok s e ∧
        match step s e with
        | none => True
        | some s' => Allowed s' es

instance Allowed.decidable [∀ s e, Decidable (ok s e)] :
    ∀ (s : σ) (es : List ε), Decidable (Allowed step ok s es)
  | _, [] => inferInstanceAs (Decidable True)
  | s, e :: es =>
      match h : step s e with
      | none => decidable_of_iff (ok s e) (by simp [Allowed, h])
      | some s' =>
          have := Allowed.decidable s' es
          decidable_of_iff (ok s e ∧ Allowed step ok s' es) (by simp [Allowed, h])

variable {step ok ok'} {s s' : σ} {e : ε} {es : List ε}

theorem run_cons : run step s (e :: es) = (step s e).bind fun s' => run step s' es := by
  cases h : step s e with
  | none => simp [run, h]
  | some s' => simp [run, h]

/-- A run with one more event. -/
theorem run_concat : run step s (es ++ [e]) = (run step s es).bind fun s' => step s' e := by
  induction es generalizing s with
  | nil =>
      rw [List.nil_append, run_cons]
      exact Option.bind_fun_some _
  | cons e' es ih =>
      rw [List.cons_append, run_cons, run_cons, Option.bind_assoc]
      exact congrArg _ (funext fun s₁ => ih)

theorem allowed_cons :
    Allowed step ok s (e :: es) ↔ ok s e ∧ ∀ s', step s e = some s' → Allowed step ok s' es := by
  cases h : step s e with
  | none => simp [Allowed, h]
  | some s' => simp [Allowed, h]

theorem Allowed.mono (h : Allowed step ok s es) (himp : ∀ s e, ok s e → ok' s e) :
    Allowed step ok' s es := by
  induction es generalizing s with
  | nil => trivial
  | cons e es ih =>
      obtain ⟨h1, h2⟩ := allowed_cons.mp h
      exact allowed_cons.mpr ⟨himp s e h1, fun s' hs' => ih (h2 s' hs')⟩

/-- A condition that holds everywhere. -/
theorem Allowed.of_forall (h : ∀ s e, ok s e) : Allowed step ok s es := by
  induction es generalizing s with
  | nil => trivial
  | cons e es ih => exact allowed_cons.mpr ⟨h s e, fun s' _ => ih⟩

/-- The first events of an allowed run. -/
theorem Allowed.left {es' : List ε} (h : Allowed step ok s (es ++ es')) :
    Allowed step ok s es := by
  induction es generalizing s with
  | nil => trivial
  | cons e es ih =>
      obtain ⟨h1, h2⟩ := allowed_cons.mp h
      exact allowed_cons.mpr ⟨h1, fun s' hs' => ih (h2 s' hs')⟩

/-- The events behind the first ones. -/
theorem Allowed.right {es' : List ε} (h : Allowed step ok s (es ++ es'))
    (hr : run step s es = some s') : Allowed step ok s' es' := by
  induction es generalizing s with
  | nil =>
      obtain rfl : s = s' := by simpa [run] using hr
      exact h
  | cons e es ih =>
      rw [run_cons] at hr
      obtain ⟨s₁, hs₁, hr⟩ := Option.bind_eq_some_iff.mp hr
      exact ih ((allowed_cons.mp h).2 s₁ hs₁) hr

theorem Allowed.and (h : Allowed step ok s es) (h' : Allowed step ok' s es) :
    Allowed step (fun s e => ok s e ∧ ok' s e) s es := by
  induction es generalizing s with
  | nil => trivial
  | cons e es ih =>
      obtain ⟨h1, h2⟩ := allowed_cons.mp h
      obtain ⟨h3, h4⟩ := allowed_cons.mp h'
      exact allowed_cons.mpr ⟨⟨h1, h3⟩, fun s' hs' => ih (h2 s' hs') (h4 s' hs')⟩

/-- A condition on the events alone. -/
theorem Allowed.of_events {p : ε → Prop} (h : ∀ e ∈ es, p e) :
    Allowed step (fun _ e => p e) s es := by
  induction es generalizing s with
  | nil => trivial
  | cons e es ih =>
      obtain ⟨h1, h2⟩ := List.forall_mem_cons.mp h
      exact allowed_cons.mpr ⟨h1, fun s' _ => ih h2⟩

/-- The last event of an allowed run. -/
theorem Allowed.last (h : Allowed step ok s (es ++ [e])) (hr : run step s es = some s') :
    ok s' e := by
  induction es generalizing s with
  | nil =>
      obtain rfl : s = s' := by simpa [run] using hr
      exact (allowed_cons.mp h).1
  | cons e' es ih =>
      rw [run_cons] at hr
      obtain ⟨s₁, hs₁, hr⟩ := Option.bind_eq_some_iff.mp hr
      exact ih ((allowed_cons.mp h).2 s₁ hs₁) hr

/-- **The run rule.** An invariant that every allowed step keeps, without getting stuck, holds at
    the end of every allowed run, and no allowed run gets stuck. -/
theorem run_inv (I : σ → Prop)
    (hstep : ∀ s e, I s → ok s e → ∃ s', step s e = some s' ∧ I s')
    (hI : I s) (h : Allowed step ok s es) : ∃ s', run step s es = some s' ∧ I s' := by
  induction es generalizing s with
  | nil => exact ⟨s, rfl, hI⟩
  | cons e es ih =>
      obtain ⟨h1, h2⟩ := allowed_cons.mp h
      obtain ⟨s', hs', hI'⟩ := hstep s e hI h1
      obtain ⟨s'', hrun, hI''⟩ := ih hI' (h2 s' hs')
      refine ⟨s'', ?_, hI''⟩
      rw [run_cons, hs']
      exact hrun

/-- **The rule for the states reached.** An invariant that every allowed step keeps holds in the
    state an allowed run reaches, if it reaches one. -/
theorem run_reached (I : σ → Prop)
    (hstep : ∀ s e s', I s → ok s e → step s e = some s' → I s')
    (hI : I s) (h : Allowed step ok s es) (hr : run step s es = some s') : I s' := by
  induction es generalizing s with
  | nil =>
      obtain rfl : s = s' := by simpa [run] using hr
      exact hI
  | cons e es ih =>
      obtain ⟨h1, h2⟩ := allowed_cons.mp h
      rw [run_cons] at hr
      obtain ⟨s₁, hs₁, hr⟩ := Option.bind_eq_some_iff.mp hr
      exact ih (hstep s e s₁ hI h1 hs₁) (h2 s₁ hs₁) hr

/-- An invariant that every step keeps holds in every state reached. -/
theorem run_keeps (I : σ → Prop) (hstep : ∀ s e s', I s → step s e = some s' → I s')
    (hI : I s) (hr : run step s es = some s') : I s' :=
  have hall : Allowed step (fun _ _ => True) s es := Allowed.of_forall fun _ _ => trivial
  run_reached I (fun s e s' h _ => hstep s e s' h) hI hall hr

/-- **The rule with the events so far.** What every allowed step keeps true of the state and of the
    events that led to it. -/
theorem run_history (I : List ε → σ → Prop)
    (hstep : ∀ past s e s', I past s → ok s e → step s e = some s' → I (past ++ [e]) s')
    (hI : I [] s) (h : Allowed step ok s es) (hr : run step s es = some s') : I es s' := by
  have hgo : ∀ past, I past s → I (past ++ es) s' := by
    intro past hp
    clear hI
    induction es generalizing s past with
    | nil =>
        obtain rfl : s = s' := by simpa [run] using hr
        rw [List.append_nil]
        exact hp
    | cons e es ih =>
        obtain ⟨h1, h2⟩ := allowed_cons.mp h
        rw [run_cons] at hr
        obtain ⟨s₁, hs₁, hr⟩ := Option.bind_eq_some_iff.mp hr
        have := ih (h2 s₁ hs₁) hr (past ++ [e]) (hstep past s e s₁ hp h1 hs₁)
        rwa [List.append_assoc] at this
  exact hgo [] hI

section Labels

variable {τ : Type w} {κ : Type x} {step' : τ → κ → Option τ} (step) (label : σ → ε → κ)

/-- What a run looks like from outside. -/
def labels : σ → List ε → List κ
  | _, [] => []
  | s, e :: es => label s e ::
      match step s e with
      | none => []
      | some s' => labels s' es

variable {step label}

/-- **The simulation rule.** If every allowed step of one system is a step of the other with its
    label, every allowed run is a run of the other with its labels. -/
theorem run_simulates (R : σ → τ → Prop)
    (hstep : ∀ s t e s', R s t → ok s e → step s e = some s' →
      ∃ t', step' t (label s e) = some t' ∧ R s' t')
    {t : τ} (hR : R s t) (h : Allowed step ok s es) (hr : run step s es = some s') :
    ∃ t', run step' t (labels step label s es) = some t' ∧ R s' t' := by
  induction es generalizing s t with
  | nil =>
      obtain rfl : s = s' := by simpa [run] using hr
      exact ⟨t, rfl, hR⟩
  | cons e es ih =>
      obtain ⟨h1, h2⟩ := allowed_cons.mp h
      rw [run_cons] at hr
      obtain ⟨s₁, hs₁, hr⟩ := Option.bind_eq_some_iff.mp hr
      obtain ⟨t₁, ht₁, hR₁⟩ := hstep s t e s₁ hR h1 hs₁
      obtain ⟨t', hrun, hR'⟩ := ih hR₁ (h2 s₁ hs₁) hr
      refine ⟨t', ?_, hR'⟩
      unfold labels
      rw [run_cons, ht₁, hs₁]
      exact hrun

end Labels

/-- Two conditions on the steps that agree as long as an invariant holds, which the steps keep,
    agree on whole runs. -/
theorem allowed_iff {ok''} (I : σ → Prop)
    (hstep : ∀ s e, I s → ok s e →
      (ok' s e ↔ ok'' s e) ∧ (ok'' s e → ∀ s', step s e = some s' → I s'))
    (hI : I s) (h : Allowed step ok s es) : Allowed step ok' s es ↔ Allowed step ok'' s es := by
  induction es generalizing s with
  | nil => exact Iff.rfl
  | cons e es ih =>
      obtain ⟨h1, h2⟩ := allowed_cons.mp h
      obtain ⟨h3, h4⟩ := hstep s e hI h1
      rw [allowed_cons, allowed_cons, h3]
      refine and_congr_right fun hs => forall₂_congr fun s' hs' => ?_
      exact ih (h4 hs s' hs') (h2 s' hs')

end Rtx.Lib
