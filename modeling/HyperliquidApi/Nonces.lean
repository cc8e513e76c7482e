import HyperliquidApi.RetryLoop

/-!
# Action nonces

`nextNonce` reads the clock, loads `lastNonce` and retries a compare-exchange to the larger of its
reading and the last nonce plus one. Any number of threads call it at once.
-/
namespace HyperliquidApi.Nonces
open Runs RetryLoop

/-- `lastNonce` as the register; the input of a call is its clock reading in milliseconds. -/
abbrev Client := Shared ℕ ℕ

/-- `std::max(now, prev + 1)` on 64-bit words. -/
def next (now prev : ℕ) : ℕ := max now ((prev + 1) % 2^64)

/-- One step of one `nextNonce`: `enter` reads the clock, `load` is `lastNonce.load()` and
`exchange` one turn of the loop. -/
def nextNonce : Client → RetryLoop.Action ℕ → Option Client := step next

/-- All values are below `2^64 - 1`. -/
def InRange (s : Client) (a : RetryLoop.Action ℕ) : Prop :=
  s.register < 2^64 - 1 ∧ match a with
    | .enter _ now => now < 2^64 - 1
    | _ => True

instance (s : Client) (a : RetryLoop.Action ℕ) : Decidable (InRange s a) := by
  unfold InRange
  cases a <;> infer_instance

def Event.reading : RetryLoop.Event ℕ ℕ → Option ℕ
  | .entered _ now => some now
  | .returned _ _ _ => none

def Event.nonce : RetryLoop.Event ℕ ℕ → Option ℕ
  | .entered _ _ => none
  | .returned _ _ nonce => some nonce

/-- The nonces issued, in the order of the successful exchanges. -/
def nonces (es : List (RetryLoop.Event ℕ ℕ)) : List ℕ := es.filterMap Event.nonce

def largestReading (es : List (RetryLoop.Event ℕ ℕ)) : ℕ := (es.filterMap Event.reading).foldr max 0

lemma foldr_max (xs : List ℕ) (a : ℕ) : xs.foldr max a = max (xs.foldr max 0) a := by
  induction xs with
  | nil => simp
  | cons x xs ih => rw [List.foldr_cons, List.foldr_cons, ih, max_assoc]

@[simp] lemma nonces_entered (es : List (RetryLoop.Event ℕ ℕ)) (t now : ℕ) :
    nonces (es ++ [.entered t now]) = nonces es := by
  simp [nonces, Event.nonce]

@[simp] lemma nonces_returned (es : List (RetryLoop.Event ℕ ℕ)) (t now nonce : ℕ) :
    nonces (es ++ [.returned t now nonce]) = nonces es ++ [nonce] := by
  simp [nonces, Event.nonce]

@[simp] lemma largestReading_entered (es : List (RetryLoop.Event ℕ ℕ)) (t now : ℕ) :
    largestReading (es ++ [.entered t now]) = max (largestReading es) now := by
  unfold largestReading
  rw [List.filterMap_append, List.foldr_append, foldr_max]
  simp [Event.reading]

@[simp] lemma largestReading_returned (es : List (RetryLoop.Event ℕ ℕ)) (t now nonce : ℕ) :
    largestReading (es ++ [.returned t now nonce]) = largestReading es := by
  have hnone : List.filterMap Event.reading [.returned t now nonce] = [] := rfl
  unfold largestReading
  rw [List.filterMap_append, hnone, List.append_nil]

lemma reading_le_largest {es : List (RetryLoop.Event ℕ ℕ)} {t now : ℕ} (h : .entered t now ∈ es) :
    now ≤ largestReading es := by
  induction es using List.reverseRecOn with
  | nil => cases h
  | append_singleton es e ih =>
    rcases List.mem_append.mp h with hes | he
    · have hle := ih hes
      cases e with
      | entered t' now' => simpa using Or.inl hle
      | returned t' now' nonce => simpa using hle
    · obtain rfl := List.mem_singleton.mp he
      simp

lemma next_eq {now prev : ℕ} (h : prev < 2^64 - 1) : next now prev = max now (prev + 1) := by
  unfold next
  rw [Nat.mod_eq_of_lt (by omega)]

/-- What holds of a nonce when it is issued after the events `earlier`. -/
structure Recent (earlier : List (RetryLoop.Event ℕ ℕ)) (t now nonce : ℕ) : Prop where
  own : .entered t now ∈ earlier
  reading_le : now ≤ nonce
  drift : nonce ≤ largestReading earlier + ((nonces earlier).length + 1)

lemma split_concat {α : Type*} {xs ys zs : List α} {a b : α} (h : xs ++ [a] = ys ++ b :: zs) :
    (xs = ys ∧ a = b) ∨ ∃ zs', xs = ys ++ b :: zs' := by
  rcases List.eq_nil_or_concat zs with rfl | ⟨zs', c, rfl⟩
  · left
    simpa [List.append_singleton_inj] using h
  · right
    rw [List.concat_eq_append, ← List.cons_append, ← List.append_assoc] at h
    exact ⟨zs', (List.append_singleton_inj.mp h).1⟩

/-- The calls one at a time: the last nonce is the largest, and at most one more than the
largest reading for each nonce issued. -/
structure Issued (es : List (RetryLoop.Event ℕ ℕ)) (last : ℕ) : Prop where
  increasing : (nonces es).Pairwise (· < ·)
  last_max : ∀ n ∈ nonces es, n ≤ last
  drift : last ≤ largestReading es + (nonces es).length
  recent : ∀ earlier later t now nonce, es = earlier ++ .returned t now nonce :: later →
    Recent earlier t now nonce

lemma Issued.entered {es : List (RetryLoop.Event ℕ ℕ)} {last : ℕ} (h : Issued es last) (t now : ℕ) :
    Issued (es ++ [.entered t now]) last := by
  constructor
  · simpa using h.increasing
  · simpa using h.last_max
  · have hd := h.drift
    rw [largestReading_entered, nonces_entered]
    omega
  · intro earlier later t' now' nonce he
    rcases split_concat he with ⟨-, he⟩ | ⟨later', he⟩
    · cases he
    · exact h.recent earlier later' t' now' nonce he

lemma Issued.returned {es : List (RetryLoop.Event ℕ ℕ)} {last t now : ℕ} (h : Issued es last)
    (hl : last < 2^64 - 1) (hin : .entered t now ∈ es) :
    Issued (es ++ [.returned t now (next now last)]) (next now last) := by
  have hd := h.drift
  have hr := reading_le_largest hin
  rw [next_eq hl]
  constructor
  · rw [nonces_returned, List.pairwise_append]
    refine ⟨h.increasing, List.pairwise_singleton _ _, ?_⟩
    intro n hn m hm
    obtain rfl := List.mem_singleton.mp hm
    have hle := h.last_max n hn
    omega
  · intro n hn
    rw [nonces_returned, List.mem_append, List.mem_singleton] at hn
    rcases hn with hn | rfl
    · have hle := h.last_max n hn
      omega
    · exact le_refl _
  · rw [largestReading_returned, nonces_returned, List.length_append, List.length_singleton]
    omega
  · intro earlier later t' now' nonce he
    rcases split_concat he with ⟨rfl, hlast⟩ | ⟨later', he⟩
    · clear he
      cases hlast
      constructor
      · exact hin
      · exact le_max_left _ _
      · omega
    · exact h.recent earlier later' t' now' nonce he

lemma issued_of_serial {es : List (RetryLoop.Event ℕ ℕ)} {last : ℕ}
    (h : Serial next (· < 2^64 - 1) 0 es last) : Issued es last := by
  induction h with
  | start =>
    constructor
    · exact List.Pairwise.nil
    · simp [nonces]
    · simp
    · simp
  | entered _ t now ih => exact ih.entered t now
  | returned _ hx hin ih => exact ih.returned hx hin

/-- The nonces issued are pairwise distinct and increase in the order of the successful
exchanges; each is at least the reading of its own call, and ahead of the largest reading so far
by no more than the number of nonces issued. -/
theorem nextNonce_increasing_recent {as : List (RetryLoop.Action ℕ)} {s : Client}
    (h : Run nextNonce InRange (initial 0) as s) :
    (nonces s.history).Pairwise (· < ·) ∧ (nonces s.history).Nodup ∧
      ∀ earlier later t now nonce, s.history = earlier ++ .returned t now nonce :: later →
        .entered t now ∈ earlier ∧ now ≤ nonce ∧
          nonce ≤ largestReading earlier + ((nonces earlier).length + 1) := by
  have serial : Serial next (· < 2^64 - 1) 0 s.history s.register := by
    refine serial_of_run ?_ h
    intro s a meets
    exact meets.1
  have issued := issued_of_serial serial
  refine ⟨issued.increasing, issued.increasing.imp (fun hlt => ne_of_lt hlt), ?_⟩
  intro earlier later t now nonce he
  have recent := issued.recent earlier later t now nonce he
  exact ⟨recent.own, recent.reading_le, recent.drift⟩

/-- Two threads with the same reading: the second one's first exchange fails, its next one fails
spuriously, the third one wins; a third thread's clock went backwards. -/
def contended : List (RetryLoop.Action ℕ) :=
  [.enter 0 5, .enter 1 5, .load 0, .load 1, .exchange 0 false, .exchange 1 false, .exchange 1 true,
    .exchange 1 false, .enter 2 3, .load 2, .exchange 2 false]

theorem nextNonce_contended :
    ∃ s, Run nextNonce InRange (initial 0) contended s ∧ nonces s.history = [5, 6, 7] ∧
      (nonces s.history).Nodup := by
  have hrun : Run nextNonce InRange (initial 0) contended _ := run_of_execute rfl
  exact ⟨_, hrun, rfl, (nextNonce_increasing_recent hrun).2.1⟩

end HyperliquidApi.Nonces
