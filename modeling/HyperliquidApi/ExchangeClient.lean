import HyperliquidApi.Nonces
import HyperliquidApi.Signatures

/-!
# The exchange client

Any number of threads post actions through one client. A call draws a nonce, signs the action with
it and posts both with the signature, so a request is tied to its nonce before any other call's is
known. What the venue can check of the requests, in whatever order the threads take their steps, is
that each comes from the signer and that no two carry the same nonce or digest.
-/
namespace HyperliquidApi.ExchangeClient
open Runs RetryLoop Nonces Signer MsgPack

/-- The request body of `postAction`; its `vaultAddress` is null. -/
structure Payload where
  action : Value
  nonce : UInt64
  signature : EthSignature

/-- Where a thread is in `placeLimit` or `cancelByCloid`. -/
inductive Call
  | idle
  | drawing (op : Operation)
  | drawn (op : Operation) (nonce : ℕ)
  | waiting (op : Operation)

/-- A request with the thread that posts it and what it is for. -/
structure Post where
  thread : ℕ
  operation : Operation
  payload : Payload

def Post.nonce (p : Post) : ℕ := p.payload.nonce.toNat

/-- The requests are in the order in which they are posted. -/
structure Client where
  nonces : Nonces.Client
  calls : ℕ → Call
  posts : List Post

/-- `call` reads the clock, `load` and `exchange` are steps of `nextNonce`, and `answered` is the
end of a call that has posted, whatever the venue answered. -/
inductive Action
  | call (t : ℕ) (op : Operation) (now : ℕ)
  | load (t : ℕ)
  | exchange (t : ℕ) (spurious : Bool)
  | post (t : ℕ)
  | answered (t : ℕ)

def initial : Client := ⟨RetryLoop.initial 0, fun _ => .idle, []⟩

def Client.setCall (s : Client) (t : ℕ) (call : Call) : Client :=
  { s with calls := Function.update s.calls t call }

section
variable (keccak256 : Bytes → Word) (signRecoverable : Word → Word → Option (Compact × ℕ))
  (signer : L1Signer)

def step (s : Client) : Action → Option Client
  | .call t op now =>
    match s.calls t with
    | .idle =>
      (nextNonce s.nonces (.enter t now)).map fun nonces =>
        { s with nonces }.setCall t (.drawing op)
    | _ => none
  | .load t =>
    match s.calls t with
    | .drawing _ => (nextNonce s.nonces (.load t)).map fun nonces => { s with nonces }
    | _ => none
  | .exchange t spurious =>
    match s.calls t with
    | .drawing op =>
      (nextNonce s.nonces (.exchange t spurious)).map fun nonces =>
        match nonces.callers t with
        | .idle => { s with nonces }.setCall t (.drawn op nonces.register)
        | _ => { s with nonces }
    | _ => none
  | .post t =>
    match s.calls t with
    | .drawn op nonce =>
      match signL1Action keccak256 signRecoverable signer op.action (UInt64.ofNat nonce) with
      | .error _ => some (s.setCall t .idle)
      | .ok signature =>
        some { s.setCall t (.waiting op) with
               posts := s.posts ++ [⟨t, op, ⟨op.action, UInt64.ofNat nonce, signature⟩⟩] }
    | _ => none
  | .answered t =>
    match s.calls t with
    | .waiting _ => some (s.setCall t .idle)
    | _ => none

/-- All nonces and clock readings are below `2^64 - 1`. -/
def InRange (s : Client) (a : Action) : Prop :=
  s.nonces.register < 2^64 - 1 ∧ match a with
    | .call _ _ now => now < 2^64 - 1
    | _ => True

instance (s : Client) (a : Action) : Decidable (InRange s a) := by
  unfold InRange
  cases a <;> infer_instance

/-- What an action does where it can happen. -/
inductive Effect (s : Client) : Action → Client → Prop
  | called {t now : ℕ} {op : Operation} {nonces : Nonces.Client} (hcall : s.calls t = .idle)
      (hnext : nextNonce s.nonces (.enter t now) = some nonces) :
      Effect s (.call t op now) ({ s with nonces }.setCall t (.drawing op))
  | loaded {t : ℕ} {op : Operation} {nonces : Nonces.Client} (hcall : s.calls t = .drawing op)
      (hnext : nextNonce s.nonces (.load t) = some nonces) :
      Effect s (.load t) { s with nonces }
  | lost {t : ℕ} {spurious : Bool} {op : Operation} {nonces : Nonces.Client}
      (hcall : s.calls t = .drawing op)
      (hnext : nextNonce s.nonces (.exchange t spurious) = some nonces)
      (hhistory : nonces.history = s.nonces.history)
      (hregister : nonces.register = s.nonces.register) :
      Effect s (.exchange t spurious) { s with nonces }
  | won {t now : ℕ} {spurious : Bool} {op : Operation} {nonces : Nonces.Client}
      (hcall : s.calls t = .drawing op)
      (hnext : nextNonce s.nonces (.exchange t spurious) = some nonces)
      (hinput : (s.nonces.callers t).input = some now)
      (hregister : nonces.register = next now s.nonces.register)
      (hhistory : nonces.history = s.nonces.history ++ [.returned t now nonces.register]) :
      Effect s (.exchange t spurious) ({ s with nonces }.setCall t (.drawn op nonces.register))
  | unsigned {t nonce : ℕ} {op : Operation} (hcall : s.calls t = .drawn op nonce) :
      Effect s (.post t) (s.setCall t .idle)
  | posted {t nonce : ℕ} {op : Operation} {signature : EthSignature}
      (hcall : s.calls t = .drawn op nonce)
      (hsign : signL1Action keccak256 signRecoverable signer op.action (UInt64.ofNat nonce) =
        .ok signature) :
      Effect s (.post t)
        { s.setCall t (.waiting op) with
          posts := s.posts ++ [⟨t, op, ⟨op.action, UInt64.ofNat nonce, signature⟩⟩] }
  | answered {t : ℕ} {op : Operation} (hcall : s.calls t = .waiting op) :
      Effect s (.answered t) (s.setCall t .idle)

/-- A turn of the loop takes the next nonce or leaves the nonces as they were. -/
lemma exchange_cases {c c' : Nonces.Client} {t : ℕ} {spurious : Bool}
    (h : nextNonce c (.exchange t spurious) = some c') :
    c'.callers t = .idle ∧ (∃ now, (c.callers t).input = some now ∧
        c'.register = next now c.register ∧
        c'.history = c.history ++ [.returned t now c'.register]) ∨
      c'.callers t ≠ .idle ∧ c'.history = c.history ∧ c'.register = c.register := by
  simp only [nextNonce, RetryLoop.step] at h
  split at h
  · rename_i now prev hcaller
    split at h
    · rename_i hx
      obtain rfl := Option.some.inj h
      refine .inl ⟨Function.update_self .., now, by rw [hcaller]; rfl, ?_, rfl⟩
      exact congrArg (next now) hx.1.symm
    · obtain rfl := Option.some.inj h
      exact .inr ⟨by simp, rfl, rfl⟩
  · cases h

/-- Entering and loading return no nonce. -/
lemma enter_cases {c c' : Nonces.Client} {t now : ℕ} (h : nextNonce c (.enter t now) = some c') :
    c'.register = c.register ∧ c'.history = c.history ++ [.entered t now] := by
  simp only [nextNonce, RetryLoop.step] at h
  split at h
  · obtain rfl := Option.some.inj h
    exact ⟨rfl, rfl⟩
  · cases h

lemma load_cases {c c' : Nonces.Client} {t : ℕ} (h : nextNonce c (.load t) = some c') :
    c'.register = c.register ∧ c'.history = c.history := by
  simp only [nextNonce, RetryLoop.step] at h
  split at h
  · obtain rfl := Option.some.inj h
    exact ⟨rfl, rfl⟩
  · cases h

/-- The step function does nothing else. -/
lemma effect_of_step {s s' : Client} {a : Action}
    (h : step keccak256 signRecoverable signer s a = some s') :
    Effect keccak256 signRecoverable signer s a s' := by
  cases a with
  | call t op now =>
    simp only [step] at h
    split at h
    · rename_i hcall
      obtain ⟨nonces, hnext, rfl⟩ := Option.map_eq_some_iff.mp h
      exact .called hcall hnext
    · cases h
  | load t =>
    simp only [step] at h
    split at h
    · rename_i op hcall
      obtain ⟨nonces, hnext, rfl⟩ := Option.map_eq_some_iff.mp h
      exact .loaded hcall hnext
    · cases h
  | exchange t spurious =>
    simp only [step] at h
    split at h
    · rename_i op hcall
      obtain ⟨nonces, hnext, hs'⟩ := Option.map_eq_some_iff.mp h
      rcases exchange_cases hnext with ⟨hidle, now, hinput, hregister, hhistory⟩ |
        ⟨hbusy, hhistory, hregister⟩
      · rw [hidle] at hs'
        exact hs' ▸ .won hcall hnext hinput hregister hhistory
      · have hsame : { s with nonces } = s' := by
          split at hs'
          · rename_i hidle
            exact absurd hidle hbusy
          · exact hs'
        exact hsame ▸ .lost hcall hnext hhistory hregister
    · cases h
  | post t =>
    simp only [step] at h
    split at h
    · rename_i op nonce hcall
      split at h
      · obtain rfl := Option.some.inj h
        exact .unsigned hcall
      · rename_i signature hsign
        obtain rfl := Option.some.inj h
        exact .posted hcall hsign
    · cases h
  | answered t =>
    simp only [step] at h
    split at h
    · rename_i op hcall
      obtain rfl := Option.some.inj h
      exact .answered hcall
    · cases h

lemma step_post {s : Client} {t n : ℕ} {op : Operation} {signature : EthSignature}
    (hcall : s.calls t = .drawn op n)
    (hsign : signL1Action keccak256 signRecoverable signer op.action (UInt64.ofNat n) =
      .ok signature) :
    step keccak256 signRecoverable signer s (.post t) =
      some { s.setCall t (.waiting op) with
             posts := s.posts ++ [⟨t, op, ⟨op.action, UInt64.ofNat n, signature⟩⟩] } := by
  simp only [step, hcall, hsign]

/-- The nonces that have been taken, or would be posted next. -/
structure NonceInv (s : Client) : Prop where
  loop : LoopInv next (· < 2^64 - 1) 0 s.nonces
  small : s.nonces.register < 2^64
  readings : ∀ t now, .entered t now ∈ s.nonces.history → now < 2^64 - 1
  distinct : (s.posts.map Post.nonce).Nodup
  issued : ∀ p ∈ s.posts, p.nonce ∈ nonces s.nonces.history
  drawn : ∀ t op n, s.calls t = .drawn op n →
    n ∈ nonces s.nonces.history ∧ n ∉ s.posts.map Post.nonce ∧
      ∀ p ∈ s.posts, p.thread = t → p.nonce < n
  alone : ∀ t t' op op' n, s.calls t = .drawn op n → s.calls t' = .drawn op' n → t = t'
  ordered : ∀ t, ((s.posts.filter (·.thread = t)).map Post.nonce).Pairwise (· < ·)

namespace NonceInv
variable {s : Client}

lemma issued_le (h : NonceInv s) : ∀ n ∈ nonces s.nonces.history, n < 2^64 := by
  intro n hn
  exact ((issued_of_serial h.loop.serial).last_max n hn).trans_lt h.small

/-- The nonces move on and no other nonce is returned. -/
lemma advance (h : NonceInv s) {c : Nonces.Client} (hloop : LoopInv next (· < 2^64 - 1) 0 c)
    (hregister : c.register = s.nonces.register)
    (hreadings : ∀ t now, .entered t now ∈ c.history → now < 2^64 - 1)
    (hissued : nonces c.history = nonces s.nonces.history) : NonceInv { s with nonces := c } :=
  { h with
    loop := hloop
    small := hregister.trans_lt h.small
    readings := hreadings
    issued := fun p hp => by
      rw [hissued]
      exact h.issued p hp
    drawn := fun t op n hcall => by
      rw [hissued]
      exact h.drawn t op n hcall }

/-- A call moves on to where it holds no nonce. -/
lemma setCall (h : NonceInv s) (t : ℕ) {call : Call} (hcall : ∀ op n, call ≠ .drawn op n) :
    NonceInv (s.setCall t call) := by
  have hother : ∀ t' op n, (s.setCall t call).calls t' = .drawn op n → s.calls t' = .drawn op n := by
    intro t' op n hdrawn
    by_cases ht : t' = t
    · rw [ht] at hdrawn
      exact absurd ((Function.update_self ..).symm.trans hdrawn) (hcall op n)
    · exact (Function.update_of_ne ht ..).symm.trans hdrawn
  exact
    { h with
      drawn := fun t' op n hdrawn => h.drawn t' op n (hother t' op n hdrawn)
      alone := fun t₁ t₂ op op' n h₁ h₂ =>
        h.alone t₁ t₂ op op' n (hother t₁ op n h₁) (hother t₂ op' n h₂) }

/-- The nonce returned is larger than all before it. -/
lemma draw (h : NonceInv s) {c : Nonces.Client} {t now : ℕ} (op : Operation)
    (hprev : s.nonces.register < 2^64 - 1) (hloop : LoopInv next (· < 2^64 - 1) 0 c)
    (hinput : (s.nonces.callers t).input = some now)
    (hregister : c.register = next now s.nonces.register)
    (hhistory : c.history = s.nonces.history ++ [.returned t now c.register]) :
    NonceInv ({ s with nonces := c }.setCall t (.drawn op c.register)) := by
  have hsmall : c.register < 2^64 := by
    have hnow := h.readings t now (h.loop.inputs t now hinput)
    rw [hregister, next_eq hprev]
    omega
  have hissued : nonces c.history = nonces s.nonces.history ++ [c.register] := by
    rw [hhistory, nonces_returned]
  have hlarger : ∀ n ∈ nonces s.nonces.history, n < c.register := by
    have hincreasing := (issued_of_serial hloop.serial).increasing
    rw [hissued, List.pairwise_append] at hincreasing
    exact fun n hn => hincreasing.2.2 n hn _ (List.mem_singleton_self _)
  have hkept : ∀ n ∈ nonces s.nonces.history, n ∈ nonces c.history := by
    intro n hn
    rw [hissued]
    exact List.mem_append_left _ hn
  have hposted : ∀ p ∈ s.posts, p.nonce < c.register := fun p hp => hlarger _ (h.issued p hp)
  have hreadings : ∀ t now, .entered t now ∈ c.history → now < 2^64 - 1 := by
    intro t' now' hmem
    rw [hhistory, List.mem_append, List.mem_singleton] at hmem
    exact h.readings t' now' (hmem.resolve_right (by simp))
  refine ⟨hloop, hsmall, hreadings, h.distinct, fun p hp => hkept _ (h.issued p hp), ?_, ?_,
    h.ordered⟩
  · intro t' op' n hdrawn
    by_cases ht : t' = t
    · rw [ht] at hdrawn
      obtain ⟨-, rfl⟩ := Call.drawn.inj ((Function.update_self ..).symm.trans hdrawn)
      refine ⟨?_, ?_, fun p hp _ => hposted p hp⟩
      · show c.register ∈ nonces c.history
        rw [hissued]
        exact List.mem_append_right _ (List.mem_singleton_self _)
      · intro hmem
        obtain ⟨p, hp, heq⟩ := List.mem_map.mp hmem
        exact absurd heq (hposted p hp).ne
    · obtain ⟨hn, hnew, hafter⟩ :=
        h.drawn t' op' n ((Function.update_of_ne ht ..).symm.trans hdrawn)
      exact ⟨hkept n hn, hnew, hafter⟩
  · have hold : ∀ t' op' n, t' ≠ t →
        ({ s with nonces := c }.setCall t (.drawn op c.register)).calls t' = .drawn op' n →
        s.calls t' = .drawn op' n ∧ n < c.register := by
      intro t' op' n ht hdrawn
      have hcall := (Function.update_of_ne ht ..).symm.trans hdrawn
      exact ⟨hcall, hlarger n (h.drawn t' op' n hcall).1⟩
    have hself : ∀ op' n,
        ({ s with nonces := c }.setCall t (.drawn op c.register)).calls t = .drawn op' n →
        n = c.register := by
      intro op' n hdrawn
      exact (Call.drawn.inj ((Function.update_self ..).symm.trans hdrawn)).2.symm
    intro t₁ t₂ op₁ op₂ n h₁ h₂
    by_cases ht₁ : t₁ = t <;> by_cases ht₂ : t₂ = t
    · rw [ht₁, ht₂]
    · rw [ht₁] at h₁
      exact absurd (hself op₁ n h₁) (hold t₂ op₂ n ht₂ h₂).2.ne
    · rw [ht₂] at h₂
      exact absurd (hself op₂ n h₂) (hold t₁ op₁ n ht₁ h₁).2.ne
    · exact h.alone t₁ t₂ op₁ op₂ n (hold t₁ op₁ n ht₁ h₁).1 (hold t₂ op₂ n ht₂ h₂).1

/-- The nonce that was drawn goes out with the request and is held no longer. -/
lemma post (h : NonceInv s) {t n : ℕ} {op : Operation} (hcall : s.calls t = .drawn op n)
    {p : Post} (hthread : p.thread = t) (hnonce : p.nonce = n) :
    NonceInv { s.setCall t (.waiting op) with posts := s.posts ++ [p] } := by
  obtain ⟨hissued, hnew, hafter⟩ := h.drawn t op n hcall
  have hquiet : NonceInv (s.setCall t (.waiting op)) := h.setCall t (by simp)
  refine ⟨h.loop, h.small, h.readings, ?_, ?_, ?_, hquiet.alone, ?_⟩
  · rw [List.map_append, List.map_singleton, List.nodup_append]
    refine ⟨h.distinct, List.nodup_singleton _, ?_⟩
    intro m hm m' hm'
    rw [List.mem_singleton.mp hm', hnonce]
    rintro rfl
    exact hnew hm
  · intro q hq
    rcases List.mem_append.mp hq with hq | hq
    · exact h.issued q hq
    · rw [List.mem_singleton.mp hq, hnonce]
      exact hissued
  · intro t' op' m hdrawn
    obtain ⟨hm, hfresh, hbefore⟩ := hquiet.drawn t' op' m hdrawn
    have ht : t' ≠ t := by
      rintro rfl
      exact absurd ((Function.update_self ..).symm.trans hdrawn) (by simp)
    have hcall' : s.calls t' = .drawn op' m := (Function.update_of_ne ht ..).symm.trans hdrawn
    refine ⟨hm, ?_, ?_⟩
    · rw [List.map_append, List.mem_append, not_or]
      refine ⟨hfresh, ?_⟩
      intro hmem
      obtain rfl : m = n := (List.mem_singleton.mp hmem).trans hnonce
      exact ht (h.alone t' t op' op m hcall' hcall)
    · intro q hq hthread'
      rcases List.mem_append.mp hq with hq | hq
      · exact hbefore q hq hthread'
      · rw [List.mem_singleton.mp hq, hthread] at hthread'
        exact absurd hthread'.symm ht
  · intro t'
    rw [List.filter_append, List.map_append, List.pairwise_append]
    refine ⟨h.ordered t', ?_, ?_⟩
    · by_cases ht : p.thread = t' <;> simp [ht]
    · intro m hm m' hm'
      obtain ⟨q, hq, rfl⟩ := List.mem_map.mp hm
      obtain ⟨hq, hqt⟩ := List.mem_filter.mp hq
      obtain ⟨q', hq', rfl⟩ := List.mem_map.mp hm'
      obtain ⟨hq', hqt'⟩ := List.mem_filter.mp hq'
      obtain rfl := List.mem_singleton.mp hq'
      rw [hnonce]
      apply hafter q hq
      exact (of_decide_eq_true hqt).trans ((of_decide_eq_true hqt').symm.trans hthread)

lemma step {s' : Client} {a : Action} (h : NonceInv s) (hrange : InRange s a)
    (hs : step keccak256 signRecoverable signer s a = some s') : NonceInv s' := by
  have hprev := hrange.1
  cases effect_of_step keccak256 signRecoverable signer hs with
  | @called t now op c hcall hnext =>
    obtain ⟨hregister, hhistory⟩ := enter_cases hnext
    refine NonceInv.setCall (h.advance (h.loop.step hprev hnext) hregister ?_ ?_) t (by simp)
    · intro t' now' hmem
      rw [hhistory, List.mem_append, List.mem_singleton] at hmem
      rcases hmem with hold | hnew
      · exact h.readings t' now' hold
      · obtain ⟨-, rfl⟩ := Event.entered.inj hnew
        exact hrange.2
    · rw [hhistory, nonces_entered]
  | loaded hcall hnext =>
    obtain ⟨hregister, hhistory⟩ := load_cases hnext
    apply h.advance (h.loop.step hprev hnext) hregister _ (by rw [hhistory])
    rw [hhistory]
    exact h.readings
  | lost hcall hnext hhistory hregister =>
    apply h.advance (h.loop.step hprev hnext) hregister _ (by rw [hhistory])
    rw [hhistory]
    exact h.readings
  | won hcall hnext hinput hregister hhistory =>
    exact h.draw _ hprev (h.loop.step hprev hnext) hinput hregister hhistory
  | unsigned hcall => exact h.setCall _ (by simp)
  | @posted t n op signature hcall hsign =>
    apply h.post hcall rfl
    show (UInt64.ofNat n).toNat = n
    rw [UInt64.toNat_ofNat', Nat.mod_eq_of_lt (h.issued_le n (h.drawn t op n hcall).1)]
  | answered hcall => exact h.setCall _ (by simp)

end NonceInv

/-- The calls that have been made. -/
def noteCall (n : List (ℕ × Operation)) (_ : Client) (a : Action) (_ : Client) :
    List (ℕ × Operation) :=
  match a with
  | .call t op _ => n ++ [(t, op)]
  | _ => n

def postedBy (t : ℕ) (posts : List Post) : List Operation :=
  (posts.filter (·.thread = t)).map Post.operation

def calledBy (t : ℕ) (n : List (ℕ × Operation)) : List Operation :=
  (n.filter (·.1 = t)).map Prod.snd

/-- What a call has still to post. -/
def Call.owed : Call → List Operation
  | .drawing op => [op]
  | .drawn op _ => [op]
  | _ => []

/-- Requests are signed, and a thread posts what it has been called with. -/
structure PostInv (s : Client) (n : List (ℕ × Operation)) : Prop where
  signed : ∀ p ∈ s.posts, p.payload.action = p.operation.action ∧
    signL1Action keccak256 signRecoverable signer p.payload.action p.payload.nonce =
      .ok p.payload.signature
  asked : ∀ t, (postedBy t s.posts ++ (s.calls t).owed).Sublist (calledBy t n)

namespace PostInv
variable {s : Client} {n : List (ℕ × Operation)}

/-- A call moves on and owes no more than before. -/
lemma setCall (h : PostInv keccak256 signRecoverable signer s n) (t : ℕ) {call : Call}
    (howed : call.owed.Sublist (s.calls t).owed) (c : Nonces.Client) :
    PostInv keccak256 signRecoverable signer ({ s with nonces := c }.setCall t call) n where
  signed := h.signed
  asked t' := by
    by_cases ht : t' = t
    · subst ht
      show (postedBy t' s.posts ++ (Function.update s.calls t' call t').owed).Sublist _
      rw [Function.update_self]
      exact ((List.Sublist.refl _).append howed).trans (h.asked t')
    · show (postedBy t' s.posts ++ (Function.update s.calls t call t').owed).Sublist _
      rw [Function.update_of_ne ht]
      exact h.asked t'

lemma step {s' : Client} {a : Action} (h : PostInv keccak256 signRecoverable signer s n)
    (hs : step keccak256 signRecoverable signer s a = some s') :
    PostInv keccak256 signRecoverable signer s' (noteCall n s a s') := by
  cases effect_of_step keccak256 signRecoverable signer hs with
  | @called t now op c hcall hnext =>
    refine ⟨h.signed, ?_⟩
    intro t'
    have hasked := h.asked t'
    show (postedBy t' s.posts ++ (Function.update s.calls t (.drawing op) t').owed).Sublist
      (calledBy t' (n ++ [(t, op)]))
    by_cases ht : t' = t
    · subst ht
      rw [hcall] at hasked
      rw [Function.update_self]
      simpa [calledBy, Call.owed] using hasked
    · rw [Function.update_of_ne ht]
      simpa [calledBy, Ne.symm ht] using hasked
  | loaded hcall hnext => exact { h with }
  | lost hcall hnext hhistory hregister => exact { h with }
  | won hcall hnext hinput hregister hhistory =>
    exact h.setCall keccak256 signRecoverable signer _ (by rw [hcall]; exact .refl _) _
  | @unsigned t nonce op hcall =>
    exact @setCall _ _ _ _ _ h t .idle (List.nil_sublist _) s.nonces
  | @posted t nonce op signature hcall hsign =>
    constructor
    · intro p hp
      rcases List.mem_append.mp hp with hp | hp
      · exact h.signed p hp
      · obtain rfl := List.mem_singleton.mp hp
        exact ⟨rfl, hsign⟩
    · intro t'
      have hasked := h.asked t'
      show (postedBy t' (s.posts ++ [_]) ++ (Function.update s.calls t (.waiting op) t').owed).Sublist
        (calledBy t' n)
      by_cases ht : t' = t
      · subst ht
        rw [hcall] at hasked
        rw [Function.update_self]
        simpa [postedBy, Call.owed] using hasked
      · rw [Function.update_of_ne ht]
        simpa [postedBy, Ne.symm ht] using hasked
  | @answered t op hcall =>
    exact @setCall _ _ _ _ _ h t .idle (List.nil_sublist _) s.nonces

lemma of_run {as : List Action}
    (h : Run (watched (ExchangeClient.step keccak256 signRecoverable signer) noteCall) anyStep
      (initial, []) as (s, n)) : PostInv keccak256 signRecoverable signer s n := by
  apply Run.invariant (P := fun w => PostInv keccak256 signRecoverable signer w.1 w.2) _ _ h
  · exact ⟨fun p hp => (by cases hp), fun t => List.Sublist.refl _⟩
  · rintro ⟨s, n⟩ a ⟨s', n'⟩ ih _ hstep
    obtain ⟨hs, hn'⟩ := watched_eq_some hstep
    dsimp only at hs hn'
    subst hn'
    exact ih.step keccak256 signRecoverable signer hs

end PostInv

end

section
variable {keccak256 : Bytes → Word} {signRecoverable : Word → Word → Option (Compact × ℕ)}

/-- If signatures recover to the key they were made with, the venue finds in every request the
signer's own address over the action and nonce that it carries. Each thread posts only what it was
called with, in that order and once a call. -/
theorem posts_authenticated {seckeyVerify : Word → Bool}
    {pubkeyCreate : Word → Option (Vector UInt8 65)}
    {recover : Word → Compact → ℕ → Option (Vector UInt8 65)} {isMainnet : Bool} {key : Word}
    {signer : L1Signer}
    (hsigner : signerOfKey keccak256 seckeyVerify pubkeyCreate isMainnet key = .ok signer)
    (hrecover : ∀ key digest compact recid, signRecoverable key digest = some (compact, recid) →
      recover digest compact recid = pubkeyCreate key)
    {as : List Action} {s : Client} {n : List (ℕ × Operation)}
    (h : Run (watched (step keccak256 signRecoverable signer) noteCall) anyStep (initial, []) as
      (s, n)) :
    (∀ p ∈ s.posts, p.payload.action = p.operation.action ∧
      recoveredSigner keccak256 recover isMainnet p.payload.action p.payload.nonce
        p.payload.signature = some signer.address) ∧
    ∀ t, (postedBy t s.posts).Sublist (calledBy t n) := by
  have hinv := PostInv.of_run keccak256 signRecoverable signer h
  constructor
  · intro p hp
    obtain ⟨haction, hsign⟩ := hinv.signed p hp
    exact ⟨haction, recoveredSigner_signL1Action hsigner hrecover hsign⟩
  · exact fun t => (List.sublist_append_left _ _).trans (hinv.asked t)

/-- Equal digests come from equal nonces. -/
lemma nonce_eq_of_digest_eq {op op' : Operation} {nonce nonce' : UInt64} {isMainnet : Bool}
    (short : op.Short) (short' : op'.Short) {inputs : List Bytes}
    (free : CollisionFree keccak256 inputs)
    (hinputs : hashed keccak256 isMainnet op.action nonce ⊆ inputs)
    (hinputs' : hashed keccak256 isMainnet op'.action nonce' ⊆ inputs)
    (h : digest keccak256 isMainnet op.action nonce = digest keccak256 isMainnet op'.action nonce') :
    nonce = nonce' :=
  (actionData_inj short short' (data_eq_of_digest_eq free hinputs hinputs' h).2).2

/-- What is hashed for the requests. -/
def hashedFor (keccak256 : Bytes → Word) (isMainnet : Bool) (posts : List Post) : List Bytes :=
  posts.flatMap fun p => hashed keccak256 isMainnet p.operation.action p.payload.nonce

def Post.digest (keccak256 : Bytes → Word) (isMainnet : Bool) (p : Post) : Word :=
  Signer.digest keccak256 isMainnet p.payload.action p.payload.nonce

lemma collisionFree_of_map {γ : Type*} {f : Word → γ} {inputs : List Bytes} {hashes : List Word}
    (h : inputs.map keccak256 = hashes) (hdistinct : (hashes.map f).Nodup) :
    CollisionFree keccak256 inputs := by
  rw [← h, List.map_map] at hdistinct
  exact collisionFree_of_nodup hdistinct

/-- In every interleaving of the threads, no two requests carry the same nonce, each thread's nonces
increase, and without a collision among the strings hashed no digest is signed twice. -/
theorem requests_never_repeat {signer : L1Signer} {isMainnet : Bool} {as : List Action} {s : Client}
    (h : Run (step keccak256 signRecoverable signer) InRange initial as s)
    (short : ∀ p ∈ s.posts, p.operation.Short)
    (free : CollisionFree keccak256 (hashedFor keccak256 isMainnet s.posts)) :
    (s.posts.map Post.nonce).Nodup ∧
    (∀ t, ((s.posts.filter (·.thread = t)).map Post.nonce).Pairwise (· < ·)) ∧
    (s.posts.map (Post.digest keccak256 isMainnet)).Nodup := by
  have hnonces : NonceInv s := by
    apply h.invariant (P := NonceInv)
    · refine ⟨loopInv_initial _ _ _, by decide, ?_, List.nodup_nil, ?_, ?_, ?_, fun t => .nil⟩
      · exact fun t now hmem => by cases hmem
      · exact fun p hp => by cases hp
      · exact fun t op n hcall => by cases hcall
      · exact fun t t' op op' n hcall => by cases hcall
    · exact fun s a s' ih hrange hs => ih.step keccak256 signRecoverable signer hrange hs
  have hposts : ∀ p ∈ s.posts, p.payload.action = p.operation.action := by
    obtain ⟨n, hwatched⟩ := (h.weaken fun _ _ _ => trivial).watch noteCall []
    have hinv := PostInv.of_run keccak256 signRecoverable signer hwatched
    exact fun p hp => (hinv.signed p hp).1
  refine ⟨hnonces.distinct, hnonces.ordered, ?_⟩
  have hpairs : s.posts.Pairwise fun p q => p.nonce ≠ q.nonce := List.pairwise_map.mp hnonces.distinct
  rw [List.Nodup, List.pairwise_map]
  apply hpairs.imp_of_mem
  intro p q hp hq hne heq
  rw [Post.digest, Post.digest, hposts p hp, hposts q hq] at heq
  have hinputs : ∀ r ∈ s.posts, hashed keccak256 isMainnet r.operation.action r.payload.nonce ⊆
      hashedFor keccak256 isMainnet s.posts :=
    fun r hr x hx => List.mem_flatMap.mpr ⟨r, hr, hx⟩
  have hnonce := nonce_eq_of_digest_eq (short p hp) (short q hq) free (hinputs p hp) (hinputs q hq) heq
  exact hne (congrArg UInt64.toNat hnonce)

end

/-! The order of the reference vectors and the cancel of its cloid, posted by two threads at the same
millisecond with the reference key. -/

def compactOf (r s : ℕ) : Compact := ⟨((wordOf r).toList ++ (wordOf s).toList).toArray, by simp⟩

def vectorKey : Word := wordOf 0x0123456789012345678901234567890123456789012345678901234567890123

def vectorPublic : Vector UInt8 65 :=
  ⟨(0x04 ::
    (wordOf 0x6655feed4d214c261e0a6b554395596f1f1476a77d999560e5a8df9b8a1a3515).toList ++
    (wordOf 0x217e88dd05e938efdd71b2cce322bf01da96cd42087b236e8f5043157a9c068e).toList).toArray,
    by simp⟩

def vectorPubkey (key : Word) : Option (Vector UInt8 65) :=
  if key = vectorKey then some vectorPublic else none

def vectorSigner : L1Signer :=
  ⟨vectorKey, source true, "0x14791697260e4c9a71f18484c9f997b308e59325"⟩

/-- The digest of a request and the words hashed on the way to it. -/
structure Hashes where
  connectionId : Word
  structHash : Word
  digest : Word

def agentHash : Word := wordOf 0x26f05c2f7239b6983075e58321292d77b3aa173d19b27257ac96ab362570f508

def sourceHash : Word := wordOf 0x3ac225168df54212a25c1c01fd35bebfea408fdac2e31ddd6f80a4bbf9a5f1cb

def domainHash : Word := wordOf 0xd79297fcdf2ffcd4ae223d01edaa2ba214ff8f401d7c9300d995d17c82aa4040

def orderHashes : Hashes :=
  ⟨wordOf 0x7cf55b62e3c12712bf83ee85fae6f7a3798e9c1afb490adeb0a45c97c8aaa0e5,
    wordOf 0xb6bc6ff0fd5f85e165e684932095996aa57992373ea829918038b935dc894fd6,
    wordOf 0x81193637c1259d16b5e3c1e0307712fe7d825646aaa56c34de769a0e10f106d6⟩

def cancelHashes : Hashes :=
  ⟨wordOf 0x42c5723348e9e7e179b4671c01fccd644d958decca9f4dea5a120cd3c79b20f5,
    wordOf 0xd05db4d69d71f82c1bfee98eeea057026b2a9680bcebbbf92ba61a3b312265e6,
    wordOf 0x40bcbb72370e09330f395f167cb94f7312973e77ba306b5d6ec154fef19c91bb⟩

/-- What depends on no request. -/
lemma network_hashed :
    Keccak.keccak256 (ascii "Agent(string source,bytes32 connectionId)") = agentHash ∧
    Keccak.keccak256 (source true) = sourceHash ∧
    exchangeDomainSeparator Keccak.keccak256 = domainHash := by
  decide +kernel

def HashesOf (op : Operation) (nonce : UInt64) (w : Hashes) : Prop :=
  Keccak.keccak256 (actionData op.action nonce) = w.connectionId ∧
  Keccak.keccak256 (agentHash.toList ++ sourceHash.toList ++ w.connectionId.toList) = w.structHash ∧
  Keccak.keccak256 ([0x19, 0x01] ++ domainHash.toList ++ w.structHash.toList) = w.digest

instance (op : Operation) (nonce : UInt64) (w : Hashes) : Decidable (HashesOf op nonce w) := by
  unfold HashesOf
  infer_instance

lemma requests_hashed : HashesOf vectorOrder 5 orderHashes ∧ HashesOf vectorCancel 6 cancelHashes := by
  decide +kernel

lemma HashesOf.hashed {op : Operation} {nonce : UInt64} {w : Hashes} (h : HashesOf op nonce w) :
    (hashed Keccak.keccak256 true op.action nonce).map Keccak.keccak256 =
      [w.connectionId, sourceHash, w.structHash, w.digest] := by
  obtain ⟨hconnection, hstruct, hdigest⟩ := h
  obtain ⟨hagent, hsource, hdomain⟩ := network_hashed
  have hbuf : structBuf Keccak.keccak256 (source true) w.connectionId =
      agentHash.toList ++ sourceHash.toList ++ w.connectionId.toList := by
    rw [structBuf, hagent, hsource]
  simp only [Signer.hashed, structHash, connectionId, digestBuf, List.map_cons, List.map_nil]
  rw [hconnection, hsource, hbuf, hstruct, hdomain, hdigest]

lemma HashesOf.agentDigest {op : Operation} {nonce : UInt64} {w : Hashes} (h : HashesOf op nonce w) :
    Signer.agentDigest Keccak.keccak256 (source true) op.action nonce = w.digest := by
  have hlast := congrArg List.getLast? h.hashed
  simpa [Signer.hashed, Signer.agentDigest] using hlast

def orderSigned : Compact × ℕ :=
  (compactOf 0xd8c55007afc30930587df101aeb304a207ccdc7fe1c6e72e5159c0a8199fda95
    0x62f5a410ed749938c4c6c4b9a106cc6b7863c4fdcf14d4fc90e5e9f2ab4d1833, 0)

def cancelSigned : Compact × ℕ :=
  (compactOf 0xe0d0ccc9fac7ed7ac6acf11ca0d58f0f39c1a1508bff615d644af31061b5020d
    0x6a32d564d1f7d420479531eadd071567c867202f80e613a28871aa75ad978005, 1)

def vectorSign (key digest : Word) : Option (Compact × ℕ) :=
  if key = vectorKey then
    if digest = orderHashes.digest then some orderSigned
    else if digest = cancelHashes.digest then some cancelSigned
    else none
  else none

def vectorRecover (digest : Word) (compact : Compact) (recid : ℕ) : Option (Vector UInt8 65) :=
  if digest = orderHashes.digest ∧ (compact, recid) = orderSigned ∨
      digest = cancelHashes.digest ∧ (compact, recid) = cancelSigned then
    some vectorPublic
  else none

lemma vectorSign_recover (key digest : Word) (compact : Compact) (recid : ℕ)
    (h : vectorSign key digest = some (compact, recid)) :
    vectorRecover digest compact recid = vectorPubkey key := by
  unfold vectorSign at h
  split_ifs at h with hkey horder hcancel
  · rw [vectorRecover, if_pos (.inl ⟨horder, (Option.some.inj h).symm⟩), vectorPubkey, if_pos hkey]
  · rw [vectorRecover, if_pos (.inr ⟨hcancel, (Option.some.inj h).symm⟩), vectorPubkey, if_pos hkey]

lemma vectorSigner_ok :
    signerOfKey Keccak.keccak256 (fun _ => true) vectorPubkey true vectorKey = .ok vectorSigner := by
  have haddress : address (Keccak.keccak256 (vectorPublic.toList.drop 1)) =
      "0x14791697260e4c9a71f18484c9f997b308e59325" := by decide +kernel
  show Except.ok (⟨vectorKey, source true,
    address (Keccak.keccak256 (vectorPublic.toList.drop 1))⟩ : L1Signer) = .ok vectorSigner
  rw [haddress]
  rfl

/-- The signature of a request, its digest computed. -/
lemma HashesOf.signed {op : Operation} {nonce : UInt64} {w : Hashes} (h : HashesOf op nonce w)
    {compact : Compact} {recid : ℕ} (hsign : vectorSign vectorKey w.digest = some (compact, recid)) :
    signL1Action Keccak.keccak256 vectorSign vectorSigner op.action nonce =
      .ok ⟨toMinimalHex compact.r, toMinimalHex compact.s, 27 + recid⟩ := by
  have hdigest := h.agentDigest
  rw [signL1Action, show vectorSigner.source = source true from rfl, hdigest,
    show vectorSigner.privateKey = vectorKey from rfl, hsign]

def orderSignature : EthSignature :=
  ⟨toMinimalHex orderSigned.1.r, toMinimalHex orderSigned.1.s, 27 + orderSigned.2⟩

def cancelSignature : EthSignature :=
  ⟨toMinimalHex cancelSigned.1.r, toMinimalHex cancelSigned.1.s, 27 + cancelSigned.2⟩

lemma order_signed : signL1Action Keccak.keccak256 vectorSign vectorSigner vectorOrder.action 5 =
    .ok orderSignature := by
  apply requests_hashed.1.signed
  rw [vectorSign, if_pos rfl, if_pos rfl]

lemma cancel_signed : signL1Action Keccak.keccak256 vectorSign vectorSigner vectorCancel.action 6 =
    .ok cancelSignature := by
  have hother : cancelHashes.digest ≠ orderHashes.digest := by decide
  apply requests_hashed.2.signed
  rw [vectorSign, if_pos rfl, if_neg hother, if_pos rfl]

/-- The second thread's first exchange fails, and it posts before the first. -/
def twoPosts : List Action :=
  [.call 0 vectorOrder 5, .call 1 vectorCancel 5, .load 0, .load 1, .exchange 0 false,
    .exchange 1 false, .exchange 1 false, .post 1, .post 0]

def postsOfTwo : List Post :=
  [⟨1, vectorCancel, ⟨vectorCancel.action, 6, cancelSignature⟩⟩,
    ⟨0, vectorOrder, ⟨vectorOrder.action, 5, orderSignature⟩⟩]

lemma twoPosts_run : ∃ s,
    Run (step Keccak.keccak256 vectorSign vectorSigner) InRange initial twoPosts s ∧
    s.posts = postsOfTwo := by
  obtain ⟨s, hdrawn, hcancel, horder, hposts, hregister⟩ : ∃ s,
      Run (step Keccak.keccak256 vectorSign vectorSigner) InRange initial
        [.call 0 vectorOrder 5, .call 1 vectorCancel 5, .load 0, .load 1, .exchange 0 false,
          .exchange 1 false, .exchange 1 false] s ∧
      s.calls 1 = .drawn vectorCancel 6 ∧ s.calls 0 = .drawn vectorOrder 5 ∧ s.posts = [] ∧
      s.nonces.register = 6 := ⟨_, run_of_execute rfl, rfl, rfl, rfl, rfl⟩
  have hrange : s.nonces.register < 2^64 - 1 := by
    rw [hregister]
    decide
  have hother : (s.setCall 1 (.waiting vectorCancel)).calls 0 = .drawn vectorOrder 5 := by
    show Function.update s.calls 1 (.waiting vectorCancel) 0 = _
    rw [Function.update_of_ne Nat.zero_ne_one, horder]
  have hfirst := hdrawn.snoc ⟨hrange, trivial⟩ (step_post _ _ _ hcancel cancel_signed)
  refine ⟨_, hfirst.snoc ⟨hrange, trivial⟩ (step_post _ _ _ hother order_signed), ?_⟩
  show s.posts ++ [_] ++ [_] = postsOfTwo
  rw [hposts]
  rfl

/-- The two requests hash the same source, and different strings otherwise. -/
lemma postsOfTwo_free : CollisionFree Keccak.keccak256
    (hashedFor Keccak.keccak256 true postsOfTwo) := by
  have hhashed : (hashedFor Keccak.keccak256 true postsOfTwo).map Keccak.keccak256 =
      [cancelHashes.connectionId, sourceHash, cancelHashes.structHash, cancelHashes.digest,
        orderHashes.connectionId, sourceHash, orderHashes.structHash, orderHashes.digest] := by
    simp only [hashedFor, postsOfTwo, List.flatMap_cons, List.flatMap_nil, List.append_nil,
      List.map_append, requests_hashed.1.hashed, requests_hashed.2.hashed, List.cons_append,
      List.nil_append]
  have hfree : CollisionFree Keccak.keccak256
      ((hashedFor Keccak.keccak256 true postsOfTwo).eraseIdx 1) := by
    apply collisionFree_of_map (f := fun w => w.toList.take 2)
    · rw [← List.eraseIdx_map, hhashed]
    · decide
  have hsubset : hashedFor Keccak.keccak256 true postsOfTwo ⊆
      (hashedFor Keccak.keccak256 true postsOfTwo).eraseIdx 1 := by
    simp [hashedFor, postsOfTwo, Signer.hashed]
  exact fun x hx y hy => hfree x (hsubset hx) y (hsubset hy)

theorem posts_authenticated_of_two : ∃ s n,
    Run (watched (step Keccak.keccak256 vectorSign vectorSigner) noteCall) anyStep (initial, [])
      twoPosts (s, n) ∧
    s.posts.length = 2 ∧
    ∀ p ∈ s.posts, recoveredSigner Keccak.keccak256 vectorRecover true p.payload.action
      p.payload.nonce p.payload.signature = some "0x14791697260e4c9a71f18484c9f997b308e59325" := by
  obtain ⟨s, hrun, hposts⟩ := twoPosts_run
  obtain ⟨n, hwatched⟩ := (hrun.weaken fun _ _ _ => trivial).watch noteCall []
  have hauthentic := posts_authenticated vectorSigner_ok vectorSign_recover hwatched
  have haddress : vectorSigner.address = "0x14791697260e4c9a71f18484c9f997b308e59325" := rfl
  rw [haddress] at hauthentic
  exact ⟨s, n, hwatched, by rw [hposts]; rfl, fun p hp => (hauthentic.1 p hp).2⟩

theorem requests_never_repeat_of_two : ∃ s,
    Run (step Keccak.keccak256 vectorSign vectorSigner) InRange initial twoPosts s ∧
    s.posts.map Post.nonce = [6, 5] ∧
    (s.posts.map (Post.digest Keccak.keccak256 true)).Nodup := by
  obtain ⟨s, hrun, hposts⟩ := twoPosts_run
  have hshort : ∀ p ∈ s.posts, p.operation.Short := by
    rw [hposts]
    decide
  have hfree : CollisionFree Keccak.keccak256 (hashedFor Keccak.keccak256 true s.posts) := by
    rw [hposts]
    exact postsOfTwo_free
  have hdistinct := (requests_never_repeat hrun hshort hfree).2.2
  exact ⟨s, hrun, by rw [hposts]; rfl, hdistinct⟩

end HyperliquidApi.ExchangeClient
