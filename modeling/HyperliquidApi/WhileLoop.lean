import Mathlib

/-!
# Partial while loops

A loop body maps the loop's locals either to the locals of the next turn or to the
value the loop leaves with. `run` gives the loop a fuel, `Returns` forgets it. The
invariant rule is partial correctness; the measure rule adds that the loop returns.
A loop that need not return does so exactly when only finitely many turns are setbacks.
-/
namespace HyperliquidApi.WhileLoop

/-- The outcome of one turn of a loop body. -/
inductive Turn (σ ρ : Type*)
  | again (s : σ)
  | leave (r : ρ)

variable {σ ρ : Type*}

/-- Execute at most `n` turns; `none` when the loop has not left by then. -/
def run (body : σ → Turn σ ρ) : ℕ → σ → Option ρ
  | 0, _ => none
  | n+1, s =>
    match body s with
    | .again s' => run body n s'
    | .leave r => some r

/-- The loop started in `s` leaves with `r` after finitely many turns. -/
def Returns (body : σ → Turn σ ρ) (s : σ) (r : ρ) : Prop := ∃ n, run body n s = some r

lemma run_again {body : σ → Turn σ ρ} {s s' : σ} (h : body s = .again s') (n : ℕ) :
    run body (n+1) s = run body n s' := by simp [run, h]

lemma run_leave {body : σ → Turn σ ρ} {s : σ} {r : ρ} (h : body s = .leave r) (n : ℕ) :
    run body (n+1) s = some r := by simp [run, h]

lemma Returns.leave {body : σ → Turn σ ρ} {s : σ} {r : ρ} (h : body s = .leave r) :
    Returns body s r := ⟨1, run_leave h 0⟩

lemma Returns.again {body : σ → Turn σ ρ} {s s' : σ} {r : ρ} (h : body s = .again s')
    (hr : Returns body s' r) : Returns body s r := by
  obtain ⟨n, hn⟩ := hr
  exact ⟨n+1, (run_again h n).trans hn⟩

theorem Returns.unique {body : σ → Turn σ ρ} {s : σ} {r r' : ρ}
    (h : Returns body s r) (h' : Returns body s r') : r = r' := by
  obtain ⟨n, hn⟩ := h
  obtain ⟨m, hm⟩ := h'
  induction n generalizing m s with
  | zero => simp [run] at hn
  | succ n ih =>
    cases m with
    | zero => simp [run] at hm
    | succ m =>
      cases hb : body s with
      | again s' => exact ih (by rwa [run_again hb] at hn) m (by rwa [run_again hb] at hm)
      | leave q =>
        rw [run_leave hb] at hn hm
        exact Option.some.inj (hn.symm.trans hm)

/-- Invariant rule: what every turn preserves and every exit establishes holds of the outcome. -/
theorem Returns.invariant {body : σ → Turn σ ρ} (Inv : σ → Prop) (Post : ρ → Prop)
    (again : ∀ s s', Inv s → body s = .again s' → Inv s')
    (leave : ∀ s r, Inv s → body s = .leave r → Post r)
    {s : σ} {r : ρ} (hs : Inv s) (hr : Returns body s r) : Post r := by
  obtain ⟨n, hn⟩ := hr
  induction n generalizing s with
  | zero => simp [run] at hn
  | succ n ih =>
    cases hb : body s with
    | again s' => exact ih (again s s' hs hb) (by rwa [run_again hb] at hn)
    | leave q =>
      rw [run_leave hb] at hn
      exact Option.some.inj hn ▸ leave s q hs hb

/-- Measure rule: an invariant under which every turn lowers a measure makes the loop return. -/
theorem returns_of_measure {body : σ → Turn σ ρ} (Inv : σ → Prop) (μ : σ → ℕ)
    (again : ∀ s s', Inv s → body s = .again s' → Inv s' ∧ μ s' < μ s)
    {s : σ} (hs : Inv s) : ∃ r, Returns body s r := by
  induction hm : μ s using Nat.strong_induction_on generalizing s with
  | _ m ih =>
    cases hb : body s with
    | leave r => exact ⟨r, Returns.leave hb⟩
    | again s' =>
      obtain ⟨hs', hlt⟩ := again s s' hs hb
      obtain ⟨r, hr⟩ := ih (μ s') (hm ▸ hlt) hs' rfl
      exact ⟨r, Returns.again hb hr⟩

/-- Total correctness: the measure rule and the invariant rule together. -/
theorem returns_of_invariant {body : σ → Turn σ ρ} (Inv : σ → Prop) (Post : ρ → Prop) (μ : σ → ℕ)
    (again : ∀ s s', Inv s → body s = .again s' → Inv s' ∧ μ s' < μ s)
    (leave : ∀ s r, Inv s → body s = .leave r → Post r)
    {s : σ} (hs : Inv s) : ∃ r, Returns body s r ∧ Post r := by
  obtain ⟨r, hr⟩ := returns_of_measure Inv μ again hs
  exact ⟨r, hr, hr.invariant Inv Post (fun s s' h hb => (again s s' h hb).1) leave hs⟩

/-- The locals after `n` turns; `none` when the loop has left before. -/
def after (body : σ → Turn σ ρ) : ℕ → σ → Option σ
  | 0, s => some s
  | n+1, s =>
    match body s with
    | .again s' => after body n s'
    | .leave _ => none

lemma after_again {body : σ → Turn σ ρ} {s s' : σ} (h : body s = .again s') (n : ℕ) :
    after body (n+1) s = after body n s' := by simp [after, h]

lemma after_leave {body : σ → Turn σ ρ} {s : σ} {r : ρ} (h : body s = .leave r) (n : ℕ) :
    after body (n+1) s = none := by simp [after, h]

/-- One more turn at the end. -/
lemma after_succ {body : σ → Turn σ ρ} {s t t' : σ} {n : ℕ} (h : after body n s = some t)
    (ht : body t = .again t') : after body (n+1) s = some t' := by
  induction n generalizing s with
  | zero =>
    obtain rfl : s = t := Option.some.inj h
    exact after_again ht 0
  | succ n ih =>
    cases hb : body s with
    | again s' =>
      rw [after_again hb] at h ⊢
      exact ih h
    | leave r =>
      rw [after_leave hb] at h
      cases h

lemma Returns.of_after {body : σ → Turn σ ρ} {s t : σ} {r : ρ} {n : ℕ}
    (h : after body n s = some t) (hr : Returns body t r) : Returns body s r := by
  induction n generalizing s with
  | zero =>
    obtain rfl : s = t := Option.some.inj h
    exact hr
  | succ n ih =>
    cases hb : body s with
    | again s' => exact Returns.again hb (ih (by rwa [after_again hb] at h))
    | leave q =>
      rw [after_leave hb] at h
      cases h

/-- A loop that returns has left after some number of turns, and stays left. -/
lemma after_eq_none_of_run {body : σ → Turn σ ρ} {s : σ} {r : ρ} {n m : ℕ}
    (h : run body n s = some r) (hm : n ≤ m) : after body m s = none := by
  induction n generalizing s m with
  | zero => simp [run] at h
  | succ n ih =>
    obtain ⟨k, rfl⟩ := Nat.exists_eq_add_of_le' hm
    cases hb : body s with
    | again s' =>
      rw [run_again hb] at h
      rw [← Nat.add_assoc, after_again hb]
      exact ih h (Nat.le_add_left n k)
    | leave q => exact after_leave hb (k+n)

lemma returns_of_after_eq_none {body : σ → Turn σ ρ} {s : σ} {n : ℕ}
    (h : after body n s = none) : ∃ r, Returns body s r := by
  induction n generalizing s with
  | zero => simp [after] at h
  | succ n ih =>
    cases hb : body s with
    | leave r => exact ⟨r, Returns.leave hb⟩
    | again s' =>
      obtain ⟨r, hr⟩ := ih (by rwa [after_again hb] at h)
      exact ⟨r, Returns.again hb hr⟩

/-- The turns of a loop that go again without lowering the measure. -/
def setbacks (body : σ → Turn σ ρ) (μ : σ → ℕ) (s : σ) : Set ℕ :=
  {n | ∃ t t', after body n s = some t ∧ body t = .again t' ∧ μ t ≤ μ t'}

/-- Setback rule: whatever the measure, a loop returns if and only if it is set back only
finitely often. -/
theorem returns_iff_setbacks_finite (body : σ → Turn σ ρ) (μ : σ → ℕ) (s : σ) :
    (∃ r, Returns body s r) ↔ (setbacks body μ s).Finite := by
  constructor
  · rintro ⟨r, n, hn⟩
    refine (Set.finite_lt_nat n).subset ?_
    rintro m ⟨t, t', ht, -, -⟩
    by_contra hm
    rw [after_eq_none_of_run hn (not_lt.mp hm)] at ht
    cases ht
  · intro hfin
    obtain ⟨N, hN⟩ := hfin.bddAbove
    cases hs : after body (N+1) s with
    | none => exact returns_of_after_eq_none hs
    | some t =>
      -- past the last setback every turn lowers the measure
      obtain ⟨r, hr⟩ : ∃ r, Returns body t r := returns_of_measure
        (fun u => ∃ n, N < n ∧ after body n s = some u) μ
        (fun u u' ⟨n, hn, hu⟩ hb => by
          refine ⟨⟨n+1, by omega, after_succ hu hb⟩, ?_⟩
          by_contra hle
          have := hN ⟨u, u', hu, hb, not_lt.mp hle⟩
          omega)
        ⟨N+1, by omega, hs⟩
      exact ⟨r, Returns.of_after hs hr⟩

/-- The setback rule where the setbacks are those turns that start in a state of `B`. -/
lemma returns_iff_finite {body : σ → Turn σ ρ} {μ : σ → ℕ} {B : σ → Prop}
    (h : ∀ t, (∃ t', body t = .again t' ∧ μ t ≤ μ t') ↔ B t) (s : σ) :
    (∃ r, Returns body s r) ↔ {n | ∃ t, after body n s = some t ∧ B t}.Finite := by
  have hsame : setbacks body μ s = {n | ∃ t, after body n s = some t ∧ B t} := by
    ext n
    refine exists_congr fun t => ?_
    rw [← h t, exists_and_left]
  rw [returns_iff_setbacks_finite body μ, hsame]

/-- Divergence rule: an invariant that keeps the loop going. -/
theorem not_returns_of_invariant {body : σ → Turn σ ρ} (Inv : σ → Prop)
    (again : ∀ s, Inv s → ∃ s', body s = .again s' ∧ Inv s') {s : σ} (hs : Inv s) :
    ¬ ∃ r, Returns body s r := by
  rintro ⟨r, n, hn⟩
  induction n generalizing s with
  | zero => simp [run] at hn
  | succ n ih =>
    obtain ⟨s', hb, hs'⟩ := again s hs
    exact ih hs' (by rwa [run_again hb] at hn)

end HyperliquidApi.WhileLoop
