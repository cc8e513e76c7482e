import HyperliquidApi.Runs

/-!
# Compare-exchange retry loops

Threads update one shared register. A call takes an input, loads the register and then tries to
exchange the value it expects for the next one, taking what it finds when the exchange fails. A
run of such calls leaves the register and returns the results of the same calls made one at a
time, each at its successful exchange.
-/
namespace HyperliquidApi.RetryLoop
open Runs

variable {ι α : Type*}

inductive Caller (ι α : Type*)
  | idle
  | entered (input : ι)
  | trying (input : ι) (prev : α)

inductive Event (ι α : Type*)
  | entered (thread : ℕ) (input : ι)
  | returned (thread : ℕ) (input : ι) (result : α)
deriving DecidableEq

/-- The register, where every thread stands, and what happened so far in order. -/
structure Shared (ι α : Type*) where
  register : α
  callers : ℕ → Caller ι α
  history : List (Event ι α)

inductive Action (ι : Type*)
  | enter (thread : ℕ) (input : ι)
  | load (thread : ℕ)
  | exchange (thread : ℕ) (spurious : Bool)

def initial (x₀ : α) : Shared ι α := ⟨x₀, fun _ => .idle, []⟩

def step [DecidableEq α] (next : ι → α → α) (s : Shared ι α) : Action ι → Option (Shared ι α)
  | .enter t input =>
    match s.callers t with
    | .idle => some { s with
        callers := Function.update s.callers t (.entered input)
        history := s.history ++ [.entered t input] }
    | _ => none
  | .load t =>
    match s.callers t with
    | .entered input => some { s with
        callers := Function.update s.callers t (.trying input s.register) }
    | _ => none
  | .exchange t spurious =>
    match s.callers t with
    | .trying input prev =>
      if s.register = prev ∧ spurious = false then
        some {
          register := next input prev
          callers := Function.update s.callers t .idle
          history := s.history ++ [.returned t input (next input prev)] }
      else
        -- a failed exchange leaves the current value in `prev`
        some { s with callers := Function.update s.callers t (.trying input s.register) }
    | _ => none

/-- The histories of calls made one at a time from `x₀`, and the value they leave. -/
inductive Serial (next : ι → α → α) (P : α → Prop) (x₀ : α) : List (Event ι α) → α → Prop
  | start : Serial next P x₀ [] x₀
  | entered {es : List (Event ι α)} {x : α} (prior : Serial next P x₀ es x) (t : ℕ) (input : ι) :
      Serial next P x₀ (es ++ [.entered t input]) x
  | returned {es : List (Event ι α)} {x : α} (prior : Serial next P x₀ es x) (hx : P x) {t : ℕ}
      {input : ι} (hin : .entered t input ∈ es) :
      Serial next P x₀ (es ++ [.returned t input (next input x)]) (next input x)

/-- The input of the call a thread is in. -/
def Caller.input : Caller ι α → Option ι
  | .idle => none
  | .entered input => some input
  | .trying input _ => some input

structure LoopInv (next : ι → α → α) (P : α → Prop) (x₀ : α) (s : Shared ι α) : Prop where
  serial : Serial next P x₀ s.history s.register
  inputs : ∀ t input, (s.callers t).input = some input → .entered t input ∈ s.history

lemma loopInv_initial (next : ι → α → α) (P : α → Prop) (x₀ : α) :
    LoopInv next P x₀ (initial x₀) := by
  constructor
  · exact .start
  · intro t input h
    cases h

/-- A thread that moves on within its call, or out of it, keeps the inputs it had. -/
lemma inputs_update {callers : ℕ → Caller ι α} {t : ℕ} {c : Caller ι α} {es es' : List (Event ι α)}
    (h : ∀ t input, (callers t).input = some input → .entered t input ∈ es)
    (hc : ∀ input, c.input = some input → .entered t input ∈ es') (hes : ∀ e ∈ es, e ∈ es') :
    ∀ t' input, (Function.update callers t c t').input = some input → .entered t' input ∈ es' := by
  intro t' input h'
  by_cases ht : t' = t
  · subst ht
    rw [Function.update_self] at h'
    exact hc input h'
  · rw [Function.update_of_ne ht] at h'
    exact hes _ (h t' input h')

lemma LoopInv.step [DecidableEq α] {next : ι → α → α} {P : α → Prop} {x₀ : α} {s s' : Shared ι α}
    {a : Action ι} (inv : LoopInv next P x₀ s) (hP : P s.register)
    (h : step next s a = some s') : LoopInv next P x₀ s' := by
  cases a with
  | enter t input =>
    simp only [RetryLoop.step] at h
    split at h
    · obtain rfl := Option.some.inj h
      constructor
      · exact inv.serial.entered t input
      · apply inputs_update inv.inputs
        · intro i hi
          obtain rfl : input = i := Option.some.inj hi
          simp
        · intro e he
          exact List.mem_append_left _ he
    · cases h
  | load t =>
    simp only [RetryLoop.step] at h
    split at h
    · rename_i input hc
      obtain rfl := Option.some.inj h
      constructor
      · exact inv.serial
      · apply inputs_update inv.inputs
        · intro i hi
          apply inv.inputs t i
          rw [hc]
          exact hi
        · exact fun _ he => he
    · cases h
  | exchange t spurious =>
    simp only [RetryLoop.step] at h
    split at h
    · rename_i input prev hc
      have hin : Event.entered t input ∈ s.history := inv.inputs t input (by rw [hc]; rfl)
      split at h
      · rename_i hx
        obtain rfl := Option.some.inj h
        obtain ⟨rfl, -⟩ := hx
        constructor
        · exact inv.serial.returned hP hin
        · apply inputs_update inv.inputs
          · intro i hi
            cases hi
          · intro e he
            exact List.mem_append_left _ he
      · obtain rfl := Option.some.inj h
        constructor
        · exact inv.serial
        · apply inputs_update inv.inputs
          · intro i hi
            obtain rfl : input = i := Option.some.inj hi
            exact hin
          · exact fun _ he => he
    · cases h

/-- Whatever the interleaving, a run is the calls made one at a time. -/
theorem serial_of_run [DecidableEq α] {next : ι → α → α} {P : α → Prop} {x₀ : α}
    {ok : Shared ι α → Action ι → Prop} (hok : ∀ s a, ok s a → P s.register)
    {as : List (Action ι)} {s : Shared ι α} (h : Run (step next) ok (initial x₀) as s) :
    Serial next P x₀ s.history s.register := by
  apply LoopInv.serial
  apply h.invariant (P := LoopInv next P x₀) (loopInv_initial next P x₀)
  intro s a s' inv meets hs
  exact inv.step (hok s a meets) hs

end HyperliquidApi.RetryLoop
