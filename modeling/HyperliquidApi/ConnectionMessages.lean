import HyperliquidApi.WritePump

/-!
# What holds of every connection's messages

A property of message lists that beginnings of lists inherit holds of what is written on every
connection of a run, as long as no step queues a message that breaks it. Torn-down connections
keep what they have written.
-/
namespace HyperliquidApi.Session
open Timers Runs

variable {Topic : Type*}

/-- The property of the current connection's messages, and of what any connection has written. -/
structure EveryConnection (Q : List (Message Topic) → Prop) (s : Session Topic) : Prop where
  current : s.connected = true → Q s.messages
  written : ∀ gen, Q (onConnection gen s.wire)

def PrefixClosed (Q : List (Message Topic) → Prop) : Prop :=
  ∀ ms ms', ms <+: ms' → Q ms' → Q ms

lemma EveryConnection.calm {Q : List (Message Topic) → Prop} {s s' : Session Topic}
    (h : EveryConnection Q s) (hs : Calm s s') : EveryConnection Q s' := by
  constructor
  · intro hup
    rw [messages, Session.written, hs.wire, hs.generation, hs.outboundQueue]
    exact h.current (hs.connected ▸ hup)
  · rw [hs.wire]
    exact h.written

lemma EveryConnection.change {Q : List (Message Topic) → Prop} (hinitial : PrefixClosed Q)
    {s s' : Session Topic} {out : List (Message Topic)} (h : EveryConnection Q s)
    (hs : Change s out s') (hnew : s.connected = true → Q (s.messages ++ out)) :
    EveryConnection Q s' := by
  have hcurrent : s'.connected = true → Q s'.messages := by
    intro hup
    obtain ⟨hbefore, heq⟩ := hs.messages hup
    rw [heq]
    exact hnew hbefore
  cases hs with
  | calm hcalm => exact h.calm hcalm
  | flushed => exact ⟨hcurrent, h.written⟩
  | enqueued payload => exact ⟨hcurrent, h.written⟩
  | @handed payload rest hidle hup hqueue =>
    refine ⟨hcurrent, ?_⟩
    intro gen
    by_cases hgen : gen = s.generation
    · subst hgen
      exact hinitial _ _ (List.prefix_append _ _) (hcurrent hup)
    · rw [onConnection_append]
      have hnone : onConnection gen [(s.generation, payload)] = [] :=
        onConnection_tagged_ne s [payload] (Ne.symm hgen)
      rw [hnone, List.append_nil]
      exact h.written gen
  | wrote hwrite => exact ⟨hcurrent, h.written⟩
  | late hgen => exact ⟨hcurrent, h.written⟩
  | tornDown => exact ⟨hcurrent, h.written⟩
  | restarted => exact ⟨hcurrent, h.written⟩

/-- It is enough to look at all that the changes queue. -/
lemma EveryConnection.changes {Q : List (Message Topic) → Prop} (hinitial : PrefixClosed Q)
    {s s' : Session Topic} {out : List (ℕ × Message Topic)} (h : EveryConnection Q s)
    (hs : Changes s out s') (hnew : s.connected = true → Q (s.messages ++ out.map Prod.snd)) :
    EveryConnection Q s' := by
  induction hs with
  | none => exact h
  | @more out out' t s' first next ih =>
    have hfirst : EveryConnection Q t := by
      apply ih
      intro hup
      apply hinitial _ _ _ (hnew hup)
      rw [List.map_append, ← List.append_assoc]
      exact List.prefix_append _ _
    apply hfirst.change hinitial next
    intro hup
    obtain ⟨hstart, heq⟩ := first.messages hup
    have hall := hnew hstart
    rw [List.map_append, ← List.append_assoc] at hall
    rw [heq]
    simpa [tagged] using hall

/-- The rule: a step keeps the property if what it queues on the connection does, and if the
topics with which a handshake opens a connection have it. -/
theorem EveryConnection.step [DecidableEq Topic] {Q : List (Message Topic) → Prop}
    (hinitial : PrefixClosed Q) {s s' : Session Topic} {a : Action Topic} (h : EveryConnection Q s)
    (hs : ProgressInv s) (hcleared : Cleared s) (hstepped : Stepped s a s')
    (hnew : s.connected = true → Q (s.messages ++ enqueues s a))
    (hfirst : s.connected = false → Q (s.topics.map .subscribe)) : EveryConnection Q s' := by
  cases hstepped with
  | called => exact ⟨h.current, h.written⟩
  | closed htasks hopen hcalm =>
    have hclosed : EveryConnection Q { s with userClosed := true } := ⟨h.current, h.written⟩
    exact hclosed.calm hcalm
  | @connected now _ hp hopen hchanges =>
    have hconnecting := (hs.phase hopen).of_chain hp rfl
    have hdown := hconnecting.connected
    have hempty : (cameUp s now).messages = [] := (hcleared.handshake hs hopen hp now).1
    have htopics : s.topics = s.pendingTopics := by
      rw [Session.topics, (hcleared.idle hdown).1]
      rfl
    have hnil : Q [] := hinitial _ _ List.nil_prefix (hfirst hdown)
    have hup : EveryConnection Q (cameUp s now) := by
      refine ⟨?_, h.written⟩
      intro _
      rw [hempty]
      exact hnil
    apply hup.changes hinitial hchanges
    intro _
    rw [hempty, map_snd_tagged, List.nil_append, ← htopics]
    exact hfirst hdown
  | changed hsame hchanges =>
    apply h.changes hinitial hchanges
    intro hup
    rw [map_snd_tagged]
    exact hnew hup

lemma everyConnection_initial {Q : List (Message Topic) → Prop} (hnil : Q []) :
    EveryConnection Q (initial : Session Topic) := ⟨fun _ => hnil, fun _ => hnil⟩

/-- Only a handshake brings a session up. -/
lemma Stepped.comesUp [DecidableEq Topic] {s s' : Session Topic} {a : Action Topic}
    (h : Stepped s a s') (hdown : s.connected = false) (hup : s'.connected = true) :
    ∃ now, a = .complete ⟨.handshake, s.generation⟩ .ok now ∧ s.userClosed = false := by
  cases h with
  | called => cases hdown.symm.trans hup
  | closed htasks hopen hcalm =>
    have hsame : s'.connected = s.connected := hcalm.connected
    cases hdown.symm.trans (hsame.symm.trans hup)
  | connected hp hopen hchanges => exact ⟨_, rfl, hopen⟩
  | changed hsame hchanges => cases hdown.symm.trans (hchanges.messages hup).1

end HyperliquidApi.Session
