import HyperliquidApi.WhileLoop
import HyperliquidApi.AscendingLists
import HyperliquidApi.Models

/-!
# Historical candles

`getHistoricalPrices` walks `[fromMs, toMs]` in windows of 5000 candles. Empty windows are
skipped, coarsely while the end is far away, and the search gives up after five years
of skipped time in a row. The last candle of a batch is dropped while it is still open.
Whatever the replies within the window, the candles come out chronological and closed.
-/
namespace HyperliquidApi.HistoricalPrices
open WhileLoop AscendingLists

def maxCandlesPerBatch : ℤ := 5000

def coarseSkipMs : ℤ := 30*24*3600*1000

def maxEmptySearchMs : ℤ := 5*365*24*3600*1000

/-- The locals of the loop, the batches the writer has been handed and the number of the
next request. -/
structure Search where
  retVal : List Candle
  batches : List (List Candle)
  batchFrom : ℤ
  emptySearchedMs : ℤ
  request : ℕ

structure Download where
  result : Except String (List Candle)
  batches : List (List Candle)

def initial (fromMs : ℤ) : Search := ⟨[], [], fromMs, 0, 0⟩

def batchEnd (interval : CandleInterval) (toMs batchFrom : ℤ) : ℤ :=
  min (batchFrom + numberOfMsForCandleInterval interval * maxCandlesPerBatch) toMs

/-- How far an empty window moves the search: never less than 30 days while more than 60
remain. -/
def emptySkip (interval : CandleInterval) (toMs batchFrom : ℤ) : ℤ :=
  let remaining := toMs - batchFrom
  let window := batchEnd interval toMs batchFrom - batchFrom
  if remaining > 2*coarseSkipMs then max window coarseSkipMs else window

def dropOpen (intervalMs toMs : ℤ) (candles : List Candle) : List Candle :=
  match candles.getLast? with
  | none => []
  | some back => if back.startTime + intervalMs > toMs then candles.dropLast else candles

/-- One turn of the loop of `getHistoricalPrices`. The candle request may answer
differently every time it is made, and may throw; `writer` says whether one is set. -/
def getHistoricalPricesTurn (getCandles : ℕ → ℤ → ℤ → Except String (List Candle))
    (writer : Bool) (interval : CandleInterval) (toMs : ℤ) (s : Search) : Turn Search Download :=
  let intervalMs := numberOfMsForCandleInterval interval
  if s.batchFrom < toMs then
    match getCandles s.request s.batchFrom (batchEnd interval toMs s.batchFrom) with
    | .error e => .leave ⟨.error e, s.batches⟩
    | .ok [] =>
      let skip := emptySkip interval toMs s.batchFrom
      let emptySearchedMs := s.emptySearchedMs + skip
      if emptySearchedMs ≥ maxEmptySearchMs then .leave ⟨.ok s.retVal, s.batches⟩
      else .again ⟨s.retVal, s.batches, min (s.batchFrom + skip) toMs, emptySearchedMs, s.request + 1⟩
    | .ok (c :: cs) =>
      let candles := dropOpen intervalMs toMs (c :: cs)
      match candles.getLast? with
      | none => .leave ⟨.ok s.retVal, s.batches⟩
      | some back =>
        .again ⟨s.retVal ++ candles, if writer then s.batches ++ [candles] else s.batches,
          back.startTime + intervalMs, 0, s.request + 1⟩
  else .leave ⟨.ok s.retVal, s.batches⟩

def getHistoricalPrices (getCandles : ℕ → ℤ → ℤ → Except String (List Candle))
    (writer : Bool) (interval : CandleInterval) (fromMs toMs : ℤ) (fuel : ℕ) : Option Download :=
  run (getHistoricalPricesTurn getCandles writer interval toMs) fuel (initial fromMs)

lemma batchEnd_le (interval : CandleInterval) (toMs batchFrom : ℤ) :
    batchEnd interval toMs batchFrom ≤ toMs := min_le_right _ _

lemma batchEnd_gt (interval : CandleInterval) {toMs batchFrom : ℤ} (h : batchFrom < toMs) :
    batchFrom < batchEnd interval toMs batchFrom := by
  have := numberOfMsForCandleInterval_pos interval
  simp only [batchEnd, maxCandlesPerBatch, lt_min_iff]
  omega

lemma emptySkip_pos (interval : CandleInterval) {toMs batchFrom : ℤ} (h : batchFrom < toMs) :
    0 < emptySkip interval toMs batchFrom := by
  have := batchEnd_gt interval h
  simp only [emptySkip, coarseSkipMs]
  split_ifs <;> omega

lemma emptySkip_le (interval : CandleInterval) (toMs batchFrom : ℤ) :
    batchFrom + emptySkip interval toMs batchFrom ≤ toMs := by
  have := batchEnd_le interval toMs batchFrom
  simp only [emptySkip, coarseSkipMs]
  split_ifs <;> omega

section Turns
variable {getCandles : ℕ → ℤ → ℤ → Except String (List Candle)} {writer : Bool}
  {interval : CandleInterval} {toMs : ℤ} {s : Search} {candles : List Candle}

lemma turn_done (h : toMs ≤ s.batchFrom) :
    getHistoricalPricesTurn getCandles writer interval toMs s = .leave ⟨.ok s.retVal, s.batches⟩ := by
  simp [getHistoricalPricesTurn, not_lt.mpr h]

lemma turn_empty (h : s.batchFrom < toMs)
    (hr : getCandles s.request s.batchFrom (batchEnd interval toMs s.batchFrom) = .ok []) :
    getHistoricalPricesTurn getCandles writer interval toMs s =
      if s.emptySearchedMs + emptySkip interval toMs s.batchFrom ≥ maxEmptySearchMs
      then .leave ⟨.ok s.retVal, s.batches⟩
      else .again ⟨s.retVal, s.batches, s.batchFrom + emptySkip interval toMs s.batchFrom,
        s.emptySearchedMs + emptySkip interval toMs s.batchFrom, s.request + 1⟩ := by
  simp [getHistoricalPricesTurn, h, hr, min_eq_left (emptySkip_le interval toMs s.batchFrom)]

lemma turn_all_open (h : s.batchFrom < toMs) (hne : candles ≠ [])
    (hr : getCandles s.request s.batchFrom (batchEnd interval toMs s.batchFrom) = .ok candles)
    (hd : dropOpen (numberOfMsForCandleInterval interval) toMs candles = []) :
    getHistoricalPricesTurn getCandles writer interval toMs s = .leave ⟨.ok s.retVal, s.batches⟩ := by
  obtain ⟨c, cs, rfl⟩ := List.exists_cons_of_ne_nil hne
  simp [getHistoricalPricesTurn, h, hr, hd]

lemma turn_batch (h : s.batchFrom < toMs)
    (hr : getCandles s.request s.batchFrom (batchEnd interval toMs s.batchFrom) = .ok candles)
    {back : Candle}
    (hd : (dropOpen (numberOfMsForCandleInterval interval) toMs candles).getLast? = some back) :
    getHistoricalPricesTurn getCandles writer interval toMs s =
      .again ⟨s.retVal ++ dropOpen (numberOfMsForCandleInterval interval) toMs candles,
        if writer then s.batches ++ [dropOpen (numberOfMsForCandleInterval interval) toMs candles]
        else s.batches,
        back.startTime + numberOfMsForCandleInterval interval, 0, s.request + 1⟩ := by
  cases candles with
  | nil => simp [dropOpen] at hd
  | cons c cs => simp [getHistoricalPricesTurn, h, hr, hd]

variable {replies : ℕ → ℤ → ℤ → List Candle}

/-- How a turn goes round again: past an empty window or behind the last candle it kept. -/
theorem turn_again {s' : Search}
    (ht : getHistoricalPricesTurn (fun n a b => .ok (replies n a b)) writer interval toMs s = .again s') :
    let reply := replies s.request s.batchFrom (batchEnd interval toMs s.batchFrom)
    let kept := dropOpen (numberOfMsForCandleInterval interval) toMs reply
    let skip := emptySkip interval toMs s.batchFrom
    s.batchFrom < toMs ∧
      ((reply = [] ∧ s.emptySearchedMs + skip < maxEmptySearchMs ∧
        s' = ⟨s.retVal, s.batches, s.batchFrom + skip, s.emptySearchedMs + skip, s.request + 1⟩) ∨
      ∃ back, kept.getLast? = some back ∧
        s' = ⟨s.retVal ++ kept, if writer then s.batches ++ [kept] else s.batches,
          back.startTime + numberOfMsForCandleInterval interval, 0, s.request + 1⟩) := by
  intro reply kept skip
  by_cases h : s.batchFrom < toMs
  · refine ⟨h, ?_⟩
    by_cases hc : reply = []
    · rw [turn_empty h (by rw [← hc])] at ht
      split_ifs at ht with hcut
      exact Or.inl ⟨hc, not_le.mp hcut, (Turn.again.inj ht).symm⟩
    · cases hk : kept.getLast? with
      | none =>
        rw [turn_all_open h hc rfl (List.getLast?_eq_none_iff.mp hk)] at ht
        cases ht
      | some back =>
        rw [turn_batch h rfl hk] at ht
        exact Or.inr ⟨back, rfl, (Turn.again.inj ht).symm⟩
  · rw [turn_done (not_lt.mp h)] at ht
    cases ht

/-- How the loop ends: at `toMs`, at the cut-off for empty time, or at a batch of which no
candle has closed. Every exit hands out what was collected so far. -/
theorem turn_leave {d : Download}
    (ht : getHistoricalPricesTurn (fun n a b => .ok (replies n a b)) writer interval toMs s = .leave d) :
    let reply := replies s.request s.batchFrom (batchEnd interval toMs s.batchFrom)
    d = ⟨.ok s.retVal, s.batches⟩ ∧
      (toMs ≤ s.batchFrom ∨
      (s.batchFrom < toMs ∧ reply = [] ∧
        maxEmptySearchMs ≤ s.emptySearchedMs + emptySkip interval toMs s.batchFrom) ∨
      (s.batchFrom < toMs ∧ reply ≠ [] ∧
        dropOpen (numberOfMsForCandleInterval interval) toMs reply = [])) := by
  intro reply
  by_cases h : s.batchFrom < toMs
  · by_cases hc : reply = []
    · rw [turn_empty h (by rw [← hc])] at ht
      split_ifs at ht with hcut
      exact ⟨(Turn.leave.inj ht).symm, Or.inr (Or.inl ⟨h, hc, hcut⟩)⟩
    · cases hk : (dropOpen (numberOfMsForCandleInterval interval) toMs reply).getLast? with
      | none =>
        have hd := List.getLast?_eq_none_iff.mp hk
        rw [turn_all_open h hc rfl hd] at ht
        exact ⟨(Turn.leave.inj ht).symm, Or.inr (Or.inr ⟨h, hc, hd⟩)⟩
      | some back =>
        rw [turn_batch h rfl hk] at ht
        cases ht
  · rw [turn_done (not_lt.mp h)] at ht
    exact ⟨(Turn.leave.inj ht).symm, Or.inl (not_lt.mp h)⟩

end Turns

lemma mem_written {writer : Bool} {batches : List (List Candle)} {kept batch : List Candle}
    (h : batch ∈ if writer then batches ++ [kept] else batches) : batch ∈ batches ∨ batch = kept := by
  split_ifs at h
  · exact (List.mem_append.mp h).imp id List.mem_singleton.mp
  · exact Or.inl h

def Spaced (d : ℤ) (candles : List Candle) : Prop :=
  candles.IsChain fun a b => a.startTime + d ≤ b.startTime

lemma Spaced.pairwise {d : ℤ} (hd : 0 < d) {candles : List Candle} (h : Spaced d candles) :
    candles.Pairwise fun a b => a.startTime + d ≤ b.startTime := by
  have : IsTrans Candle fun a b => a.startTime + d ≤ b.startTime := ⟨fun a b c _ _ => by omega⟩
  exact List.isChain_iff_pairwise.mp h

lemma Spaced.ascending {d : ℤ} (hd : 0 < d) {candles : List Candle} (h : Spaced d candles) :
    Ascending Candle.startTime candles :=
  (h.pairwise hd).imp fun hab => by omega

/-- In a spaced batch that starts no later than `toMs` only the last candle can be open. -/
theorem dropOpen_eq_filter {d toMs : ℤ} (hd : 0 < d) {candles : List Candle} (h : Spaced d candles)
    (hto : ∀ c ∈ candles, c.startTime ≤ toMs) :
    dropOpen d toMs candles = candles.filter fun c => c.startTime + d ≤ toMs := by
  cases hb : candles.getLast? with
  | none => simp [List.getLast?_eq_none_iff.mp hb, dropOpen]
  | some back =>
    obtain ⟨init, rfl⟩ := List.getLast?_eq_some_iff.mp hb
    have hinit : ∀ c ∈ init, c.startTime + d ≤ toMs := fun c hc =>
      ((List.pairwise_append.mp (h.pairwise hd)).2.2 c hc back (by simp)).trans (hto back (by simp))
    have hkeep : init.filter (fun c => decide (c.startTime + d ≤ toMs)) = init :=
      List.filter_eq_self.mpr fun c hc => by simpa using hinit c hc
    by_cases ho : back.startTime + d > toMs
    · simp [dropOpen, ho, hkeep]
    · simp [dropOpen, ho, hkeep, not_lt.mp ho]

/-- Replies consistent with the window they answer: spaced candles that overlap it. -/
def WithinWindow (intervalMs : ℤ) (replies : ℕ → ℤ → ℤ → List Candle) : Prop :=
  ∀ n a b, Spaced intervalMs (replies n a b) ∧
    ∀ c ∈ replies n a b, a < c.startTime + intervalMs ∧ c.startTime ≤ b

/-- The search never looks back: every returned candle has ended by `batchFrom`. -/
structure Chronological (interval : CandleInterval) (toMs : ℤ) (s : Search) : Prop where
  ascending : Ascending Candle.startTime s.retVal
  closed : ∀ c ∈ s.retVal, c.startTime + numberOfMsForCandleInterval interval ≤ toMs
  behind : ∀ c ∈ s.retVal, c.startTime + numberOfMsForCandleInterval interval ≤ s.batchFrom
  nonempty : ∀ batch ∈ s.batches, batch ≠ []

section Order
variable {interval : CandleInterval} {toMs : ℤ} {replies : ℕ → ℤ → ℤ → List Candle} {writer : Bool}

lemma initial_chronological (fromMs : ℤ) : Chronological interval toMs (initial fromMs) :=
  ⟨List.Pairwise.nil, by simp [initial], by simp [initial], by simp [initial]⟩

lemma Chronological.again (hw : WithinWindow (numberOfMsForCandleInterval interval) replies)
    {s s' : Search} (h : Chronological interval toMs s)
    (ht : getHistoricalPricesTurn (fun n a b => .ok (replies n a b)) writer interval toMs s = .again s') :
    Chronological interval toMs s' ∧ s.batchFrom < toMs ∧ s.batchFrom < s'.batchFrom := by
  have hd := numberOfMsForCandleInterval_pos interval
  obtain ⟨hg, ⟨_, _, rfl⟩ | ⟨back, hback, rfl⟩⟩ := turn_again ht
  · have hpos := emptySkip_pos interval hg
    refine ⟨⟨h.ascending, h.closed, fun c hc => ?_, h.nonempty⟩, hg, by simp only; omega⟩
    have := h.behind c hc
    dsimp only
    omega
  · obtain ⟨hsp, hwin⟩ := hw s.request s.batchFrom (batchEnd interval toMs s.batchFrom)
    have hend := batchEnd_le interval toMs s.batchFrom
    rw [dropOpen_eq_filter hd hsp fun c hc => (hwin c hc).2.trans hend] at hback ⊢
    have hasc := (hsp.ascending hd).filter
      fun c => decide (c.startTime + numberOfMsForCandleInterval interval ≤ toMs)
    have hfirst := (hwin back (List.mem_of_mem_filter (List.mem_of_getLast? hback))).1
    refine ⟨⟨?_, ?_, ?_, ?_⟩, hg, hfirst⟩
    · refine h.ascending.append hasc fun a ha b hb => ?_
      have := h.behind a ha
      have := (hwin b (List.mem_of_mem_filter hb)).1
      omega
    · intro c hc
      rcases List.mem_append.mp hc with hc | hc
      · exact h.closed c hc
      · simpa using (List.mem_filter.mp hc).2
    · intro c hc
      rcases List.mem_append.mp hc with hc | hc
      · have := h.behind c hc
        dsimp only
        omega
      · have := hasc.le_getLast hback hc
        dsimp only
        omega
    · intro batch hb
      rcases mem_written hb with hb | rfl
      · exact h.nonempty batch hb
      · exact List.ne_nil_of_mem (List.mem_of_getLast? hback)

/-- Against any server that stays within the requested windows the download ends, its candles
have strictly increasing start times and have all closed by `toMs`, and no batch is empty. -/
theorem getHistoricalPrices_chronological (fromMs : ℤ)
    (hw : WithinWindow (numberOfMsForCandleInterval interval) replies) :
    ∃ candles batches,
      Returns (getHistoricalPricesTurn (fun n a b => .ok (replies n a b)) writer interval toMs)
        (initial fromMs) ⟨.ok candles, batches⟩ ∧
      candles.Pairwise (fun a b => a.startTime < b.startTime) ∧
      (∀ c ∈ candles, c.startTime + numberOfMsForCandleInterval interval ≤ toMs) ∧
      ∀ batch ∈ batches, batch ≠ [] := by
  obtain ⟨d, hr, s, hs, rfl⟩ :=
    returns_of_invariant (Chronological interval toMs)
      (fun d => ∃ s, Chronological interval toMs s ∧ d = ⟨.ok s.retVal, s.batches⟩) (fun s => (toMs - s.batchFrom).toNat)
      (fun s s' hs ht => by
        obtain ⟨hinv, hg, hlt⟩ := hs.again hw ht
        exact ⟨hinv, by omega⟩)
      (fun s d hs ht => ⟨s, hs, (turn_leave ht).1⟩) (initial_chronological fromMs)
  exact ⟨s.retVal, s.batches, hr, hs.ascending, hs.closed, hs.nonempty⟩

end Order

/-- A server that always has the candle that ends with the window, and one overlapping its start. -/
def overlapping (_ : ℕ) (a b : ℤ) : List Candle :=
  if a + 3600000 < b then
    [⟨a - 1, a + 3599998, "BTC", "1h", 1, 1, 1, 1, 1, 1⟩, ⟨b - 1, b + 3599998, "BTC", "1h", 1, 1, 1, 1, 1, 1⟩]
  else []

theorem getHistoricalPrices_chronological_overlapping :
    ∃ candles batches,
      Returns (getHistoricalPricesTurn (fun n a b => .ok (overlapping n a b)) true ._1h 86400000)
        (initial 0) ⟨.ok candles, batches⟩ ∧
      candles.Pairwise (fun a b => a.startTime < b.startTime) ∧
      (∀ c ∈ candles, c.startTime + numberOfMsForCandleInterval ._1h ≤ 86400000) ∧
      ∀ batch ∈ batches, batch ≠ [] := by
  refine getHistoricalPrices_chronological 0 fun n a b => ?_
  unfold overlapping
  split_ifs with h
  · simp only [Spaced, List.isChain_pair, numberOfMsForCandleInterval, List.mem_cons,
      List.not_mem_nil, or_false, forall_eq_or_imp, forall_eq]
    omega
  · simp [Spaced]

end HyperliquidApi.HistoricalPrices
