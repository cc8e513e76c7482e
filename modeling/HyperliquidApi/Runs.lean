import Mathlib

/-!
# Runs of partial step functions

A step function says what an action does in a state, or that it cannot happen there. Runs
carry the actions taken so far and may be restricted to steps that meet a condition on the
state they start in; what such steps preserve holds in every state such runs reach.
-/
namespace HyperliquidApi.Runs

variable {σ α : Type*}

/-- The runs from `s₀` all of whose steps meet `ok`. -/
inductive Run (step : σ → α → Option σ) (ok : σ → α → Prop) (s₀ : σ) : List α → σ → Prop
  | nil : Run step ok s₀ [] s₀
  | snoc {as : List α} {s s' : σ} {a : α} (prior : Run step ok s₀ as s) (meets : ok s a)
      (next : step s a = some s') : Run step ok s₀ (as ++ [a]) s'

/-- No condition on the steps. -/
def anyStep (_ : σ) (_ : α) : Prop := True

instance (s : σ) (a : α) : Decidable (anyStep s a) := isTrue trivial

/-- Take the actions one after the other; `none` when one of them cannot happen or does not
meet the condition. -/
def execute (step : σ → α → Option σ) (ok : σ → α → Prop) [∀ s a, Decidable (ok s a)] :
    σ → List α → Option σ
  | s, [] => some s
  | s, a :: as =>
    if ok s a then
      match step s a with
      | none => none
      | some s' => execute step ok s' as
    else none

/-- What holds at the start and is kept by every step that meets the condition holds in every
state of a run. -/
theorem Run.invariant {step : σ → α → Option σ} {ok : σ → α → Prop} {s₀ : σ} {P : σ → Prop}
    (start : P s₀) (keep : ∀ s a s', P s → ok s a → step s a = some s' → P s')
    {as : List α} {s : σ} (h : Run step ok s₀ as s) : P s := by
  induction h with
  | nil => exact start
  | snoc _ meets next ih => exact keep _ _ _ ih meets next

/-- A weaker condition on the steps has more runs. -/
lemma Run.weaken {step : σ → α → Option σ} {ok ok' : σ → α → Prop} {s₀ : σ}
    (hok : ∀ s a, ok s a → ok' s a) {as : List α} {s : σ} (h : Run step ok s₀ as s) :
    Run step ok' s₀ as s := by
  induction h with
  | nil => exact .nil
  | snoc _ meets next ih => exact ih.snoc (hok _ _ meets) next

/-- Conditions that are the same where an invariant of the runs holds have the same runs. -/
theorem Run.congr {step : σ → α → Option σ} {ok ok' : σ → α → Prop} {s₀ : σ} {P : σ → Prop}
    (start : P s₀) (keep : ∀ s a s', P s → ok s a → step s a = some s' → P s')
    (same : ∀ s a s', P s → step s a = some s' → (ok s a ↔ ok' s a)) {as : List α} {s : σ} :
    Run step ok s₀ as s ↔ Run step ok' s₀ as s := by
  constructor
  · intro h
    induction h with
    | nil => exact .nil
    | snoc prior meets next ih =>
      exact ih.snoc ((same _ _ _ (prior.invariant start keep) next).mp meets) next
  · intro h
    induction h with
    | nil => exact .nil
    | snoc prior meets next ih =>
      exact ih.snoc ((same _ _ _ (ih.invariant start keep) next).mpr meets) next

lemma Run.append_execute {step : σ → α → Option σ} {ok : σ → α → Prop}
    [∀ s a, Decidable (ok s a)] {s₀ : σ} {before : List α} {s : σ} (h : Run step ok s₀ before s)
    {as : List α} {s' : σ} (he : execute step ok s as = some s') :
    Run step ok s₀ (before ++ as) s' := by
  induction as generalizing before s with
  | nil =>
    obtain rfl : s = s' := Option.some.inj he
    simpa using h
  | cons a as ih =>
    unfold execute at he
    split at he
    · rename_i hmeets
      cases hs : step s a with
      | none => simp [hs] at he
      | some t =>
        rw [hs] at he
        have ht : Run step ok s₀ (before ++ [a]) t := .snoc h hmeets hs
        simpa using ih ht he
    · cases he

theorem run_of_execute {step : σ → α → Option σ} {ok : σ → α → Prop} [∀ s a, Decidable (ok s a)]
    {s₀ s : σ} {as : List α} (h : execute step ok s₀ as = some s) : Run step ok s₀ as s :=
  Run.append_execute .nil h

/-- Some run takes these actions, to a state of which a property can be decided. -/
theorem exists_run_of_execute {step : σ → α → Option σ} {ok : σ → α → Prop}
    [∀ s a, Decidable (ok s a)] {s₀ : σ} {as : List α} {P : σ → Prop} [DecidablePred P]
    (h : (execute step ok s₀ as).any (fun s => decide (P s)) = true) :
    ∃ s, Run step ok s₀ as s ∧ P s := by
  obtain ⟨s, hs, hP⟩ := (Option.any_eq_true _ _).mp h
  exact ⟨s, run_of_execute hs, of_decide_eq_true hP⟩


variable {μ : Type*}

/-- Keep notes on the steps of a run, which do not depend on them. -/
def watched (step : σ → α → Option σ) (note : μ → σ → α → σ → μ) (s : σ × μ) (a : α) :
    Option (σ × μ) :=
  (step s.1 a).map fun s' => (s', note s.2 s.1 a s')

lemma watched_eq_some {step : σ → α → Option σ} {note : μ → σ → α → σ → μ} {s s' : σ × μ} {a : α}
    (h : watched step note s a = some s') : step s.1 a = some s'.1 ∧ s'.2 = note s.2 s.1 a s'.1 := by
  obtain ⟨t, ht, rfl⟩ := Option.map_eq_some_iff.mp h
  exact ⟨ht, rfl⟩

/-- Every run can be watched. -/
theorem Run.watch {step : σ → α → Option σ} {ok : σ → α → Prop} {s₀ : σ} {as : List α} {s : σ}
    (h : Run step ok s₀ as s) (note : μ → σ → α → σ → μ) (m₀ : μ) :
    ∃ m, Run (watched step note) (fun s a => ok s.1 a) (s₀, m₀) as (s, m) := by
  induction h with
  | nil => exact ⟨m₀, .nil⟩
  | @snoc as s s' a _ meets next ih =>
    obtain ⟨m, hm⟩ := ih
    exact ⟨note m s a s', hm.snoc meets (by simp [watched, next])⟩

end HyperliquidApi.Runs
