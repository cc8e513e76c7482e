import HyperliquidApi.SessionMessages

/-!
# What `isConnected` tells

`isConnected` returns `connectedFlag`, which the handlers maintain by hand. Whether there really is
a connection is noted beside the session, from the results that the handlers are given.
-/
namespace HyperliquidApi.Session
open Timers Runs

variable {Topic : Type*}

def isConnected (s : Session Topic) : Bool := s.connectedFlag

/-- Whether the handshake of the current generation has succeeded and since then no failure of that
connection has been handled and no close carried out. The handler of the closing handshake, which
is pending after a close only, is left out. -/
def noteLink (link : Bool) (s : Session Topic) (a : Action Topic) (s' : Session Topic) : Bool :=
  if s'.generation ≠ s.generation then false
  else
    match a with
    | .complete p c _ =>
      if p.generation ≠ s.generation ∨ p.operation = .close then link
      else if c = .failed then false
      else if p.operation = .handshake ∧ c = .ok then true
      else link
    | .task =>
      match s.tasks with
      | .closeByUser :: _ => false
      | _ => link
    | _ => link

/-- An open session is only closed while it is not connected. -/
def ClosedDisconnected (s : Session Topic) : Action Topic → Prop
  | .task => s.tasks.head? = some .closeByUser → s.userClosed = false → s.connectedFlag = false
  | _ => True

/-- After the step, a flag that is set has a connection behind it. -/
def FlagTruthful [DecidableEq Topic] (t : Session Topic × Bool) (a : Action Topic) : Prop :=
  ∀ t', watched step noteLink t a = some t' → t'.1.isConnected = true → t'.2 = true

/-- What is known without looking at results: the flag copies `connected`. -/
structure Flagged (s : Session Topic) : Prop where
  copies : s.connectedFlag = s.connected
  closed : s.userClosed = true → s.connectedFlag = false

/-- The flag has not been set, and where it still is, the connection is the same. -/
structure Unset (s s' : Session Topic) : Prop where
  flag : s'.connectedFlag = true → s.connectedFlag = true ∧ s'.generation = s.generation
  userClosed : s'.userClosed = s.userClosed
  copies : s.connectedFlag = s.connected → s'.connectedFlag = s'.connected

lemma Unset.trans {s t s' : Session Topic} (h : Unset s t) (h' : Unset t s') : Unset s s' where
  flag hflag := by
    obtain ⟨ht, hgen⟩ := h'.flag hflag
    obtain ⟨hs, hgen'⟩ := h.flag ht
    exact ⟨hs, hgen.trans hgen'⟩
  userClosed := h'.userClosed.trans h.userClosed
  copies hs := h'.copies (h.copies hs)

lemma Change.unset {s s' : Session Topic} {out : List (Message Topic)} (h : Change s out s') :
    Unset s s' := by
  cases h with
  | calm hcalm =>
    constructor
    · intro hflag
      exact ⟨hcalm.connectedFlag ▸ hflag, hcalm.generation⟩
    · exact hcalm.userClosed
    · rw [hcalm.connectedFlag, hcalm.connected]
      exact id
  | tornDown => exact ⟨fun hflag => (by cases hflag), rfl, fun _ => rfl⟩
  | restarted => exact ⟨fun hflag => (by cases hflag), rfl, fun _ => rfl⟩
  | _ => exact ⟨fun hflag => ⟨hflag, rfl⟩, rfl, id⟩

lemma Changes.unset {s s' : Session Topic} {out : List (ℕ × Message Topic)}
    (h : Changes s out s') : Unset s s' := by
  induction h with
  | none => exact ⟨fun hflag => ⟨hflag, rfl⟩, rfl, id⟩
  | more _ next ih => exact ih.trans next.unset

lemma handleError_flag {s : Session Topic} (hopen : s.userClosed = false)
    (hscheduled : s.reconnectScheduled = false) : (s.handleError s.generation).connectedFlag = false := by
  simp [handleError, hopen, hscheduled]

/-- While connected, a failure of the connection is never ignored. -/
lemma Up.fails {s : Session Topic} (h : Up s) (hopen : s.userClosed = false) {p : Pending}
    (hgen : p.generation = s.generation) (hop : p.operation ≠ .close) (now : ℕ) :
    ((s.without p).onCompletion p .failed now).connectedFlag = false := by
  obtain ⟨operation, gen⟩ := p
  obtain rfl : gen = s.generation := hgen
  have hcurrent : (s.without ⟨operation, s.generation⟩).generation = s.generation := rfl
  simp only [onCompletion, hcurrent, ne_eq, not_true_eq_false, if_false]
  cases operation with
  | close => exact absurd rfl hop
  | write => exact handleError_flag (s := { s.without _ with writeInFlight := false }) hopen h.scheduled
  | _ => exact handleError_flag (s := s.without _) hopen h.scheduled

/-- A flag that is set has a connection behind it. -/
structure Truthful (s : Session Topic) (link : Bool) : Prop where
  progress : ProgressInv s
  flagged : Flagged s
  linked : s.connectedFlag = true → link = true

/-- A connected session is open, and in the phase in which it has a connection. -/
lemma Truthful.up {s : Session Topic} {link : Bool} (h : Truthful s link)
    (hflag : s.connectedFlag = true) : s.userClosed = false ∧ Up s := by
  have hopen : s.userClosed = false := by
    by_contra hclosed
    have hnot := h.flagged.closed (by simpa using hclosed)
    cases hflag.symm.trans hnot
  have hup : s.connected = true := h.flagged.copies ▸ hflag
  refine ⟨hopen, ?_⟩
  cases h.progress.phase hopen with
  | fresh hf => cases hup.symm.trans hf.connected
  | connecting hc => cases hup.symm.trans hc.connected
  | up hu => exact hu
  | down hd => cases hup.symm.trans hd.connected

section
variable [DecidableEq Topic]

/-- No note is taken back while the flag stays set. -/
lemma Truthful.noteLink {s s' : Session Topic} {a : Action Topic} {link : Bool} (h : Truthful s link)
    (hdisconnected : ClosedDisconnected s a) (heffect : Effect s a s')
    (hunset : Unset s s') (hflag : s'.connectedFlag = true) : Session.noteLink link s a s' = true := by
  obtain ⟨hset, hgen⟩ := hunset.flag hflag
  have hlink := h.linked hset
  obtain ⟨hopen, hup⟩ := h.up hset
  unfold Session.noteLink
  rw [if_neg (not_not.mpr hgen)]
  cases heffect with
  | @completed p c now hp =>
    dsimp only
    split
    · exact hlink
    · rename_i hcurrent
      rw [not_or, ne_eq, not_not] at hcurrent
      split
      · rename_i hfailed
        subst hfailed
        have hdown := hup.fails hopen hcurrent.1 hcurrent.2 now
        cases hflag.symm.trans hdown
      · split
        · rfl
        · exact hlink
  | ran htasks =>
    dsimp only
    split
    · rename_i hclosing
      cases hset.symm.trans (hdisconnected (by rw [hclosing]; rfl) hopen)
    · exact hlink
  | _ => exact hlink

lemma Truthful.step {s s' : Session Topic} {a : Action Topic} {link : Bool} (h : Truthful s link)
    (hdisconnected : ClosedDisconnected s a) (heffect : Effect s a s') :
    Truthful s' (Session.noteLink link s a s') := by
  have hnext := h.progress.step heffect
  cases stepped_of_effect h.progress heffect with
  | called hcall hnil htopics =>
    refine ⟨hnext, ⟨h.flagged.copies, h.flagged.closed⟩, ?_⟩
    intro hflag
    exact h.noteLink hdisconnected heffect ⟨fun hflag => ⟨hflag, rfl⟩, rfl, id⟩ hflag
  | closed htasks hopen hcalm =>
    have hflag : s'.connectedFlag = false := by
      rw [hcalm.connectedFlag]
      exact hdisconnected (by rw [htasks]; rfl) hopen
    refine ⟨hnext, ⟨?_, fun _ => hflag⟩, fun hset => ?_⟩
    · rw [hcalm.connectedFlag, hcalm.connected]
      exact h.flagged.copies
    · cases hset.symm.trans hflag
  | @connected now _ hp hopen hchanges =>
    have hunset := hchanges.unset
    refine ⟨hnext, ⟨hunset.copies rfl, ?_⟩, ?_⟩
    · intro hclosed
      rw [hunset.userClosed] at hclosed
      cases hclosed.symm.trans hopen
    · intro hflag
      have hgen : s'.generation = s.generation := (hunset.flag hflag).2
      simp [Session.noteLink, hgen]
  | changed hsame hchanges =>
    have hunset := hchanges.unset
    refine ⟨hnext, ⟨hunset.copies h.flagged.copies, ?_⟩, ?_⟩
    · intro hclosed
      rw [hunset.userClosed] at hclosed
      by_contra hset
      rw [Bool.not_eq_false] at hset
      cases (hunset.flag hset).1.symm.trans (h.flagged.closed hclosed)
    · intro hflag
      exact h.noteLink hdisconnected heffect hunset hflag

/-- Closing a connected session leaves the flag as it is. -/
lemma closedDisconnected_of_truthful {t t' : Session Topic × Bool} {a : Action Topic}
    (hstep : watched step Session.noteLink t a = some t') (h : FlagTruthful t a) :
    ClosedDisconnected t.1 a := by
  obtain ⟨s, link⟩ := t
  obtain ⟨hnext, hnote⟩ := watched_eq_some hstep
  have htruthful := h t' hstep
  cases a with
  | task =>
    intro hhead hopen
    dsimp only at hhead hopen hnext hnote ⊢
    obtain ⟨rest, htasks⟩ := List.head?_eq_some_iff.mp hhead
    simp only [step, htasks, runTask, Option.some.injEq] at hnext
    have hcalm := closeByUser_calm (s := { s with tasks := rest }) hopen
    rw [hnext] at hcalm
    by_contra hset
    rw [Bool.not_eq_false] at hset
    have hlinked := htruthful (hcalm.connectedFlag.trans hset)
    rw [hnote] at hlinked
    simp [Session.noteLink, hcalm.generation, htasks] at hlinked
  | _ => trivial

end

lemma truthful_initial : Truthful (initial : Session Topic) false :=
  ⟨progressInv_initial, ⟨rfl, fun _ => rfl⟩, fun hflag => by cases hflag⟩

lemma truthful_of_watched [DecidableEq Topic] {t t' : Session Topic × Bool} {a : Action Topic}
    (h : Truthful t.1 t.2) (hclosed : ClosedDisconnected t.1 a)
    (hstep : watched step Session.noteLink t a = some t') : Truthful t'.1 t'.2 := by
  obtain ⟨hnext, hnote⟩ := watched_eq_some hstep
  rw [hnote]
  exact h.step hclosed (effect_of_step hnext)

/-- `isConnected` is truthful after every step of exactly those runs in which the session is
closed only while it is not connected. -/
theorem isConnected_truthful_exactly [DecidableEq Topic] {as : List (Action Topic)}
    {t : Session Topic × Bool} :
    Run (watched step Session.noteLink) FlagTruthful (initial, false) as t ↔
      Run (watched step Session.noteLink) (fun t a => ClosedDisconnected t.1 a) (initial, false) as
        t := by
  apply Run.congr (P := fun t => Truthful t.1 t.2) truthful_initial
  · intro t a t' h meets next
    exact truthful_of_watched h (closedDisconnected_of_truthful next meets) next
  · intro t a t' h next
    constructor
    · exact closedDisconnected_of_truthful next
    · exact fun hclosed u hu => (truthful_of_watched h hclosed hu).linked

/-- Closed by the user while connected, the closing handshake done and the stream gone. -/
theorem isConnected_after_close : ¬ ∀ (as : List (Action String)) (s : Session String) (link : Bool),
    Run (watched step Session.noteLink) anyStep (initial, false) as (s, link) →
      s.isConnected = true → link = true := by
  intro h
  have hrun : Run (watched step Session.noteLink) anyStep ((initial : Session String), false)
      (connects ++ ([.close, .post .closeByUser, .task, .complete ⟨.close, 1⟩ .ok 1,
        .complete ⟨.read, 1⟩ .failed 2] : List (Action String))) (_, _) := run_of_execute rfl
  cases h _ _ _ hrun rfl

end HyperliquidApi.Session
