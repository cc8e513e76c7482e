import Mathlib

/-!
# One-shot timers

A timer's waits are the asynchronous waits whose completion handler has not run. Cancelling or
rearming a timer aborts the waits that are still running; a wait that has already fired stays
fired. Waits carry a stamp, by which their handlers tell whether they are out of date.
-/
namespace HyperliquidApi.Timers

inductive Status
  | waiting
  | fired
  | aborted
  deriving DecidableEq

structure Wait (α : Type*) where
  stamp : α
  status : Status
  deriving DecidableEq

variable {α : Type*}

def cancel (timer : List (Wait α)) : List (Wait α) :=
  timer.map fun w => if w.status = .waiting then ⟨w.stamp, .aborted⟩ else w

/-- Set a new expiry and wait for it. -/
def arm (a : α) (timer : List (Wait α)) : List (Wait α) := ⟨a, .waiting⟩ :: cancel timer

/-- Only running waits are in question when a timer is cancelled; their stamps stay. -/
lemma stamps_cancel {timer : List (Wait α)} {P : α → Prop} (h : ∀ w ∈ timer, P w.stamp) :
    ∀ w ∈ cancel timer, P w.stamp := by
  intro w hw
  obtain ⟨v, hv, rfl⟩ := List.mem_map.mp hw
  split
  · exact h v hv
  · exact h v hv

lemma stamps_arm {timer : List (Wait α)} {P : α → Prop} {a : α} (ha : P a)
    (h : ∀ w ∈ timer, P w.stamp) : ∀ w ∈ arm a timer, P w.stamp := by
  intro w hw
  rcases List.mem_cons.mp hw with rfl | hw
  · exact ha
  · exact stamps_cancel h w hw

section
variable [DecidableEq α]

/-- The expiry of one running wait. -/
def expire (w : Wait α) (timer : List (Wait α)) : List (Wait α) :=
  ⟨w.stamp, .fired⟩ :: timer.erase w

/-- How many waits carry a stamp. -/
def stamped (a : α) (timer : List (Wait α)) : ℕ := timer.countP fun w => w.stamp = a

/-- How many waits with a stamp will fire or have fired. -/
def live (a : α) (timer : List (Wait α)) : ℕ :=
  timer.countP fun w => w.stamp = a ∧ w.status ≠ .aborted

lemma live_le_stamped (a : α) (timer : List (Wait α)) : live a timer ≤ stamped a timer := by
  apply List.countP_mono_left
  simp +contextual

@[simp] lemma stamped_cancel (a : α) (timer : List (Wait α)) :
    stamped a (cancel timer) = stamped a timer := by
  unfold stamped cancel
  rw [List.countP_map]
  congr 1
  funext w
  dsimp only [Function.comp_apply]
  split <;> rfl

lemma live_cancel_le (a : α) (timer : List (Wait α)) : live a (cancel timer) ≤ live a timer := by
  unfold live cancel
  rw [List.countP_map]
  apply List.countP_mono_left
  intro w _
  dsimp only [Function.comp_apply]
  split <;> simp

@[simp] lemma stamped_arm (a b : α) (timer : List (Wait α)) :
    stamped a (arm b timer) = stamped a timer + if b = a then 1 else 0 := by
  unfold arm
  rw [stamped, List.countP_cons, ← stamped, stamped_cancel]
  simp

/-- Rearming after the last wait has been handled leaves exactly one. -/
lemma live_arm {a : α} {timer : List (Wait α)} (h : live a timer = 0) : live a (arm a timer) = 1 := by
  have hcancel := live_cancel_le a timer
  unfold arm
  rw [live, List.countP_cons, ← live]
  simp
  omega

lemma countP_eq_erase {β : Type*} [DecidableEq β] {b : β} {l : List β} (h : b ∈ l)
    (q : β → Bool) : l.countP q = (l.erase b).countP q + if q b then 1 else 0 := by
  rw [(List.perm_cons_erase h).countP_eq, List.countP_cons]

lemma stamped_erase {w : Wait α} {timer : List (Wait α)} (h : w ∈ timer) (a : α) :
    stamped a timer = stamped a (timer.erase w) + if w.stamp = a then 1 else 0 := by
  unfold stamped
  rw [countP_eq_erase h]
  simp

lemma live_erase {w : Wait α} {timer : List (Wait α)} (h : w ∈ timer) (a : α) :
    live a timer = live a (timer.erase w) +
      if w.stamp = a ∧ w.status ≠ .aborted then 1 else 0 := by
  unfold live
  rw [countP_eq_erase h]
  simp

lemma stamps_expire {w : Wait α} {timer : List (Wait α)} {P : α → Prop} (hw : w ∈ timer)
    (h : ∀ v ∈ timer, P v.stamp) : ∀ v ∈ expire w timer, P v.stamp := by
  intro v hv
  rcases List.mem_cons.mp hv with rfl | hv
  · exact h w hw
  · exact h v (List.mem_of_mem_erase hv)

lemma stamped_expire {w : Wait α} {timer : List (Wait α)} (h : w ∈ timer) (a : α) :
    stamped a (expire w timer) = stamped a timer := by
  rw [stamped_erase h]
  unfold expire
  rw [stamped, List.countP_cons, ← stamped]
  simp

lemma live_expire {w : Wait α} {timer : List (Wait α)} (h : w ∈ timer) (hw : w.status = .waiting)
    (a : α) : live a (expire w timer) = live a timer := by
  rw [live_erase h]
  unfold expire
  rw [live, List.countP_cons, ← live]
  simp [hw]

end

end HyperliquidApi.Timers
