import HyperliquidApi.HistoricalPricesExact

/-!
# Months that are still open

Whether a candle has closed is judged by the nominal length of its interval, and only for
the last candle of a batch: the others end before the next one starts. A month of 31 days
has nominally ended on its last day, while it is still open.
-/
namespace HyperliquidApi.HistoricalPrices
open WhileLoop AscendingLists

/-- Months last as long as the calendar says, every other candle exactly its interval. -/
def CandleLength (interval : CandleInterval) (c : Candle) : Prop :=
  match interval with
  | ._1M => ∃ days : ℤ, 28 ≤ days ∧ days ≤ 31 ∧ c.closeTime = c.startTime + days*86400000 - 1
  | _ => c.closeTime = c.startTime + numberOfMsForCandleInterval interval - 1

structure History (interval : CandleInterval) (S : List Candle) : Prop where
  contiguous : S.IsChain fun a b => a.closeTime = b.startTime - 1
  lengths : ∀ c ∈ S, CandleLength interval c

/-- The candle has nominally ended by `toMs` and is still open there. -/
def EndsLate (interval : CandleInterval) (toMs : ℤ) (c : Candle) : Prop :=
  c.startTime + numberOfMsForCandleInterval interval ≤ toMs ∧ toMs ≤ c.closeTime

lemma CandleLength.start_le {interval : CandleInterval} {c : Candle}
    (h : CandleLength interval c) : c.startTime ≤ c.closeTime := by
  have := numberOfMsForCandleInterval_pos interval
  cases interval
  case _1M =>
    obtain ⟨days, _, _, he⟩ := h
    omega
  all_goals
    simp only [CandleLength] at h
    omega

/-- Only on the last day of a month of 31 days is a nominally ended candle still open. -/
theorem EndsLate.last_day {interval : CandleInterval} {toMs : ℤ} {c : Candle}
    (h : EndsLate interval toMs c) (hl : CandleLength interval c) :
    interval = ._1M ∧ c.closeTime = c.startTime + 31*86400000 - 1 ∧
      c.startTime + 30*86400000 ≤ toMs ∧ toMs ≤ c.closeTime := by
  obtain ⟨hend, hopen⟩ := h
  cases interval
  case _1M =>
    obtain ⟨days, hlo, hhi, he⟩ := hl
    simp only [numberOfMsForCandleInterval] at hend
    exact ⟨rfl, by omega, by omega, hopen⟩
  all_goals
    simp only [CandleLength] at hl
    omega

/-- The candles of a window of 5000 nominal lengths. -/
def fullWindow (S : List Candle) (interval : CandleInterval) (p : ℤ) : List Candle :=
  candleSnapshot S 0 p (p + numberOfMsForCandleInterval interval * maxCandlesPerBatch)

/-- Starting over at `p` one asks for the candle: in the window there, or in one of those that
follow the last candle of the window. -/
inductive AskedFrom (S : List Candle) (interval : CandleInterval) (c : Candle) : ℤ → Prop
  | inside {p : ℤ} (start : p ≤ c.startTime)
      (stop : c.startTime ≤ p + numberOfMsForCandleInterval interval * maxCandlesPerBatch) :
      AskedFrom S interval c p
  | behind {p : ℤ} {back : Candle} (last : (fullWindow S interval p).getLast? = some back)
      (rest : AskedFrom S interval c (back.startTime + numberOfMsForCandleInterval interval)) :
      AskedFrom S interval c p

/-- A month that is asked for is on its last day at `toMs`. -/
def OpenMonthAsked (S : List Candle) (interval : CandleInterval) (fromMs toMs : ℤ) : Prop :=
  ∃ c ∈ S, EndsLate interval toMs c ∧ AskedFrom S interval c fromMs

section Batches
variable {d toMs : ℤ} {candles : List Candle} {c : Candle}

lemma mem_of_mem_dropOpen (h : c ∈ dropOpen d toMs candles) : c ∈ candles := by
  unfold dropOpen at h
  split at h
  · cases h
  · split_ifs at h
    · exact List.mem_of_mem_dropLast h
    · exact h

/-- Only a last candle that is nominally open is dropped. -/
lemma mem_dropOpen (hc : c ∈ candles) (hend : c.startTime + d ≤ toMs) :
    c ∈ dropOpen d toMs candles := by
  cases hl : candles.getLast? with
  | none => simp [List.getLast?_eq_none_iff.mp hl] at hc
  | some last =>
    obtain ⟨init, rfl⟩ := List.getLast?_eq_some_iff.mp hl
    by_cases ho : last.startTime + d > toMs
    · rcases List.mem_append.mp hc with hi | he
      · simpa [dropOpen, ho] using hi
      · rw [List.mem_singleton.mp he] at hend
        omega
    · simpa [dropOpen, ho] using hc

lemma dropOpen_of_last {last : Candle} (hl : candles.getLast? = some last)
    (hend : last.startTime + d ≤ toMs) : dropOpen d toMs candles = candles := by
  simp [dropOpen, hl, not_lt.mpr hend]

/-- What is kept starts before the last candle or has nominally ended. -/
lemma lt_last_or_ended (h : Ascending Candle.startTime candles) {last : Candle}
    (hl : candles.getLast? = some last) (hc : c ∈ dropOpen d toMs candles) :
    c.startTime < last.startTime ∨ c.startTime + d ≤ toMs := by
  obtain ⟨init, rfl⟩ := List.getLast?_eq_some_iff.mp hl
  have hinit : ∀ c ∈ init, c.startTime < last.startTime := fun c hc =>
    (List.pairwise_append.mp h).2.2 c hc last (by simp)
  by_cases ho : last.startTime + d > toMs
  · left
    exact hinit c (by simpa [dropOpen, ho] using hc)
  · rw [dropOpen_of_last hl (not_lt.mp ho)] at hc
    rcases List.mem_append.mp hc with hi | he
    · exact Or.inl (hinit c hi)
    · right
      rw [List.mem_singleton.mp he]
      exact not_lt.mp ho

end Batches

section Asked
variable {S : List Candle} {interval : CandleInterval} {fromMs toMs : ℤ} {c : Candle}

lemma AskedFrom.start_le {p : ℤ} (h : AskedFrom S interval c p) : p ≤ c.startTime := by
  induction h with
  | inside start _ => exact start
  | behind last _ ih =>
    have hd := numberOfMsForCandleInterval_pos interval
    have := (mem_candleSnapshot.mp (List.mem_of_getLast? last)).2.1
    omega

/-- Up to 5000 nominal months, that is 410 years, everything from `fromMs` on is asked for. -/
theorem openMonthAsked_iff
    (h : toMs ≤ fromMs + numberOfMsForCandleInterval interval * maxCandlesPerBatch) :
    OpenMonthAsked S interval fromMs toMs ↔
      ∃ c ∈ S, EndsLate interval toMs c ∧ fromMs ≤ c.startTime := by
  have hd := numberOfMsForCandleInterval_pos interval
  refine exists_congr fun c => and_congr_right fun _ => and_congr_right fun hl => ?_
  refine ⟨AskedFrom.start_le, fun hs => .inside hs ?_⟩
  have := hl.1
  omega

/-- A history of fixed intervals has no open month. -/
theorem not_openMonthAsked (history : History interval S) (h : interval ≠ ._1M) :
    ¬ OpenMonthAsked S interval fromMs toMs := by
  rintro ⟨c, hc, hl, _⟩
  exact h (hl.last_day (history.lengths c hc)).1

lemma le_emptySkip (interval : CandleInterval) (toMs batchFrom : ℤ) :
    batchEnd interval toMs batchFrom ≤ batchFrom + emptySkip interval toMs batchFrom := by
  simp only [emptySkip]
  split_ifs <;> omega

/-- Away from the end of the range the batch is that of a full window. -/
lemma candleSnapshot_batchEnd {S : List Candle} {interval : CandleInterval} {toMs p : ℤ} (n : ℕ)
    (h : p + numberOfMsForCandleInterval interval * maxCandlesPerBatch ≤ toMs) :
    candleSnapshot S n p (batchEnd interval toMs p) = fullWindow S interval p := by
  rw [batchEnd, min_eq_left h, fullWindow, candleSnapshot, candleSnapshot]

/-- What is asked for behind the last candle a batch keeps was asked for before the batch. -/
lemma AskedFrom.before {n : ℕ} {p : ℤ} {back c : Candle}
    (hback : (dropOpen (numberOfMsForCandleInterval interval) toMs
      (candleSnapshot S n p (batchEnd interval toMs p))).getLast? = some back)
    (hl : EndsLate interval toMs c)
    (h : AskedFrom S interval c (back.startTime + numberOfMsForCandleInterval interval)) :
    AskedFrom S interval c p := by
  have hd := numberOfMsForCandleInterval_pos interval
  have hstart := h.start_le
  have hto := hl.1
  have hmem := mem_of_mem_dropOpen (List.mem_of_getLast? hback)
  have hbackS := mem_candleSnapshot.mp hmem
  by_cases hfull : c.startTime ≤ p + numberOfMsForCandleInterval interval * maxCandlesPerBatch
  · exact .inside (by omega) hfull
  · rw [candleSnapshot_batchEnd n (by omega)] at hback hmem
    obtain ⟨last, hlast⟩ := Option.ne_none_iff_exists'.mp
      (mt List.getLast?_eq_none_iff.mp (List.ne_nil_of_mem hmem))
    -- the month starts behind the window, so the last candle of the window has nominally ended
    have hlS := mem_candleSnapshot.mp (List.mem_of_getLast? hlast)
    rw [dropOpen_of_last hlast (by omega)] at hback
    exact .behind hback h

/-- The state of a download whose open candles are those the search asks for. -/
structure Tracked (S : List Candle) (interval : CandleInterval) (fromMs toMs : ℤ) (s : Search) :
    Prop where
  returned : ∀ c ∈ s.retVal, c.closeTime < toMs ∨ OpenMonthAsked S interval fromMs toMs
  written : ∀ batch ∈ s.batches, ∀ c ∈ batch, c ∈ s.retVal
  asked : ∀ c ∈ S, EndsLate interval toMs c → AskedFrom S interval c s.batchFrom →
    AskedFrom S interval c fromMs
  pending : ∀ c ∈ S, EndsLate interval toMs c → AskedFrom S interval c fromMs →
    c ∈ s.retVal ∨ AskedFrom S interval c s.batchFrom
  nonneg : 0 ≤ s.emptySearchedMs

lemma initial_tracked : Tracked S interval fromMs toMs (initial fromMs) :=
  ⟨by simp [initial], by simp [initial], fun _ _ _ h => h, fun _ _ _ h => Or.inr h, le_rfl⟩

end Asked

section History
variable {S : List Candle} {interval : CandleInterval} {fromMs toMs : ℤ} {writer : Bool}
  (history : History interval S)
include history

lemma History.pairwise : S.Pairwise fun a b => a.closeTime < b.startTime :=
  pairwise_of_consecutive (fun c hc => (history.lengths c hc).start_le)
    (history.contiguous.imp fun a b h => by omega)

lemma History.ascending : Ascending Candle.startTime S :=
  history.pairwise.imp_of_mem fun ha _ h => (history.lengths _ ha).start_le.trans_lt h

lemma History.le_last {n : ℕ} {a b : ℤ} {last c : Candle}
    (hl : (candleSnapshot S n a b).getLast? = some last) (hc : c ∈ candleSnapshot S n a b) :
    c.startTime ≤ last.startTime :=
  (history.ascending.filter _).le_getLast hl hc

/-- A candle that starts before another one has closed when the other one starts. -/
lemma History.closed_before {c c' : Candle} (hc : c ∈ S) (hc' : c' ∈ S)
    (h : c.startTime < c'.startTime) : c.closeTime < c'.startTime := by
  have := (history.lengths c' hc').start_le
  rcases pairwise_apart history.pairwise hc hc' with rfl | hlt | hlt
  · omega
  · exact hlt
  · omega

/-- What a batch hands out has closed, except that its last candle has only nominally ended. -/
lemma History.kept_closed {n : ℕ} {a b : ℤ} (hb : b ≤ toMs) {c : Candle}
    (hc : c ∈ dropOpen (numberOfMsForCandleInterval interval) toMs (candleSnapshot S n a b)) :
    c.closeTime < toMs ∨ EndsLate interval toMs c := by
  have hmem := mem_of_mem_dropOpen hc
  cases hl : (candleSnapshot S n a b).getLast? with
  | none => simp [List.getLast?_eq_none_iff.mp hl] at hmem
  | some last =>
    have hcS := mem_candleSnapshot.mp hmem
    have hlS := mem_candleSnapshot.mp (List.mem_of_getLast? hl)
    rcases lt_last_or_ended (history.ascending.filter _) hl hc with hlt | hend
    · left
      have := history.closed_before hcS.1 hlS.1 hlt
      omega
    · exact (lt_or_ge c.closeTime toMs).imp id fun ho => ⟨hend, ho⟩

/-- The batch of a window that reaches an open month hands the month out; the one of an earlier
window leads on towards it. -/
lemma AskedFrom.kept {n : ℕ} {p : ℤ} {c : Candle} (h : AskedFrom S interval c p) (hc : c ∈ S)
    (hl : EndsLate interval toMs c) :
    let kept := dropOpen (numberOfMsForCandleInterval interval) toMs
      (candleSnapshot S n p (batchEnd interval toMs p))
    c ∈ kept ∨ ∃ back, kept.getLast? = some back ∧
      AskedFrom S interval c (back.startTime + numberOfMsForCandleInterval interval) := by
  intro kept
  have hd := numberOfMsForCandleInterval_pos interval
  have hto := hl.1
  cases h with
  | inside start stop =>
    left
    refine mem_dropOpen (mem_candleSnapshot.mpr ⟨hc, start, ?_⟩) hto
    exact le_min stop (by omega)
  | @behind _ back last rest =>
    right
    have hstart := rest.start_le
    have hback := mem_candleSnapshot.mp (List.mem_of_getLast? last)
    -- the window ends before `toMs`, or the month would lie in it
    have hp : p + numberOfMsForCandleInterval interval * maxCandlesPerBatch ≤ toMs := by
      by_contra hgt
      have := history.le_last last (mem_candleSnapshot.mpr ⟨hc, by omega, by omega⟩)
      omega
    refine ⟨back, ?_, rest⟩
    simp only [kept, candleSnapshot_batchEnd n hp]
    rw [dropOpen_of_last last (by omega)]
    exact last

/-- Behind an empty window of 5000 months or at the end of the range nothing is asked for. -/
lemma History.not_asked_after_empty {s : Search} (hnonneg : 0 ≤ s.emptySearchedMs)
    (hcut : s.emptySearchedMs + emptySkip interval toMs s.batchFrom < maxEmptySearchMs) {c : Candle}
    (hc : c ∈ S) (hl : EndsLate interval toMs c) :
    ¬ AskedFrom S interval c (s.batchFrom + emptySkip interval toMs s.batchFrom) := by
  intro h
  have hd := numberOfMsForCandleInterval_pos interval
  have hstart := h.start_le
  have hskip := le_emptySkip interval toMs s.batchFrom
  have hto := hl.1
  obtain ⟨rfl, -⟩ := hl.last_day (history.lengths c hc)
  simp only [batchEnd, numberOfMsForCandleInterval, maxCandlesPerBatch, maxEmptySearchMs] at *
  omega

lemma Tracked.again {s s' : Search} (h : Tracked S interval fromMs toMs s)
    (ht : getHistoricalPricesTurn (fun n a b => .ok (candleSnapshot S n a b)) writer interval toMs s
      = .again s') :
    Tracked S interval fromMs toMs s' ∧ s.batchFrom < toMs ∧ s.batchFrom < s'.batchFrom := by
  have hd := numberOfMsForCandleInterval_pos interval
  obtain ⟨hg, ⟨hreply, hcut, rfl⟩ | ⟨back, hback, rfl⟩⟩ := turn_again ht
  · have hpos := emptySkip_pos interval hg
    have hnonneg := h.nonneg
    refine ⟨⟨h.returned, h.written, ?_, ?_, ?_⟩, hg, by dsimp only; omega⟩
    · exact fun c hc hl ha => absurd ha (history.not_asked_after_empty hnonneg hcut hc hl)
    · intro c hc hl ha
      refine (h.pending c hc hl ha).imp id fun hp => ?_
      rcases hp.kept history hc hl (n := s.request) with hk | ⟨_, hk, _⟩ <;>
        simp [hreply, dropOpen] at hk
    · dsimp only
      omega
  · have hbackS := mem_candleSnapshot.mp (mem_of_mem_dropOpen (List.mem_of_getLast? hback))
    refine ⟨⟨?_, ?_, ?_, ?_, le_rfl⟩, hg, by dsimp only; omega⟩
    · intro c hc
      rcases List.mem_append.mp hc with hc | hc
      · exact h.returned c hc
      · have hcS := mem_candleSnapshot.mp (mem_of_mem_dropOpen hc)
        refine (history.kept_closed (batchEnd_le interval toMs _) hc).imp id fun hl => ?_
        refine ⟨c, hcS.1, hl, h.asked c hcS.1 hl (.inside hcS.2.1 ?_)⟩
        exact hcS.2.2.trans (min_le_left _ _)
    · intro batch hb c hc
      rcases mem_written hb with hb | rfl
      · exact List.mem_append_left _ (h.written batch hb c hc)
      · exact List.mem_append_right _ hc
    · exact fun c hc hl ha => h.asked c hc hl (ha.before hback hl)
    · intro c hc hl ha
      rcases h.pending c hc hl ha with hr | hp
      · exact Or.inl (List.mem_append_left _ hr)
      · rcases hp.kept history hc hl (n := s.request) with hk | ⟨back', hback', hrest⟩
        · exact Or.inl (List.mem_append_right _ hk)
        · obtain rfl : back = back' := Option.some.inj (hback.symm.trans hback')
          exact Or.inr hrest

lemma Tracked.leave {s : Search} {d : Download} (h : Tracked S interval fromMs toMs s)
    (ht : getHistoricalPricesTurn (fun n a b => .ok (candleSnapshot S n a b)) writer interval toMs s
      = .leave d) :
    d = ⟨.ok s.retVal, s.batches⟩ ∧
      ∀ c ∈ S, EndsLate interval toMs c → AskedFrom S interval c fromMs → c ∈ s.retVal := by
  have hd := numberOfMsForCandleInterval_pos interval
  obtain ⟨hout, hcase⟩ := turn_leave ht
  refine ⟨hout, fun c hc hl ha => (h.pending c hc hl ha).resolve_right fun hp => ?_⟩
  have hstart := hp.start_le
  have hto := hl.1
  have hne : dropOpen (numberOfMsForCandleInterval interval) toMs
      (candleSnapshot S s.request s.batchFrom (batchEnd interval toMs s.batchFrom)) ≠ [] := by
    rcases hp.kept history hc hl (n := s.request) with hk | ⟨_, hk, _⟩
    · exact List.ne_nil_of_mem hk
    · exact List.ne_nil_of_mem (List.mem_of_getLast? hk)
  rcases hcase with hg | ⟨_, hreply, _⟩ | ⟨_, _, hdrop⟩
  · omega
  · exact hne (by simp [hreply, dropOpen])
  · exact hne hdrop

/-- The download ends; every candle it returned or handed to the writer has closed by `toMs` if
and only if no month is asked for that is on its last day there. -/
theorem getHistoricalPrices_closed_iff :
    ∃ candles batches,
      Returns (getHistoricalPricesTurn (fun n a b => .ok (candleSnapshot S n a b)) writer interval toMs)
        (initial fromMs) ⟨.ok candles, batches⟩ ∧
      ((∀ c, (c ∈ candles ∨ ∃ batch ∈ batches, c ∈ batch) → c.closeTime < toMs) ↔
        ¬ OpenMonthAsked S interval fromMs toMs) := by
  obtain ⟨d, hr, s, hs, rfl, hall⟩ :=
    returns_of_invariant (Tracked S interval fromMs toMs)
      (fun d => ∃ s, Tracked S interval fromMs toMs s ∧ d = ⟨.ok s.retVal, s.batches⟩ ∧
        ∀ c ∈ S, EndsLate interval toMs c → AskedFrom S interval c fromMs → c ∈ s.retVal)
      (fun s => (toMs - s.batchFrom).toNat)
      (fun s s' hs ht => by
        obtain ⟨hinv, hg, hlt⟩ := hs.again history ht
        exact ⟨hinv, by omega⟩)
      (fun s d hs ht => ⟨s, hs, hs.leave history ht⟩) initial_tracked
  refine ⟨s.retVal, s.batches, hr, ?_, ?_⟩
  · rintro hclosed ⟨c, hc, hl, ha⟩
    have := hclosed c (Or.inl (hall c hc hl ha))
    have := hl.2
    omega
  · intro hno c hc
    have hret : c ∈ s.retVal := hc.elim id fun ⟨batch, hb, hm⟩ => hs.written batch hb c hm
    exact (hs.returned c hret).resolve_right hno

end History

def january : Candle := ⟨1704067200000, 1706745599999, "BTC", "1M", 1, 1, 1, 1, 1, 1⟩

def february : Candle := ⟨1706745600000, 1709251199999, "BTC", "1M", 1, 1, 1, 1, 1, 1⟩

lemma history_2024 : History ._1M [january, february] where
  contiguous := by simp [january, february]
  lengths := by
    simp only [List.mem_cons, List.not_mem_nil, or_false, forall_eq_or_imp, forall_eq]
    exact ⟨⟨31, by decide⟩, ⟨29, by decide⟩⟩

theorem getHistoricalPrices_closed_iff_february :
    ∃ candles batches,
      Returns (getHistoricalPricesTurn (fun n a b => .ok (candleSnapshot [january, february] n a b))
        true ._1M 1706745600000) (initial 1704067200000) ⟨.ok candles, batches⟩ ∧
      ((∀ c, (c ∈ candles ∨ ∃ batch ∈ batches, c ∈ batch) → c.closeTime < 1706745600000) ↔
        ¬ OpenMonthAsked [january, february] ._1M 1704067200000 1706745600000) :=
  getHistoricalPrices_closed_iff history_2024

/-- At the start of January 31st January is handed out, although it is still open. -/
theorem january_returned_open :
    History ._1M [january, february] ∧
      Returns (getHistoricalPricesTurn (fun n a b => .ok (candleSnapshot [january, february] n a b))
        true ._1M 1706659200000) (initial 1704067200000) ⟨.ok [january], [[january]]⟩ ∧
      ¬ january.closeTime < 1706659200000 := by
  refine ⟨history_2024, ?_, by decide⟩
  have hturn : getHistoricalPricesTurn (fun n a b => .ok (candleSnapshot [january, february] n a b))
      true ._1M 1706659200000 (initial 1704067200000) =
    .again ⟨[january], [[january]], 1706659200000, 0, 1⟩ := by rfl
  exact Returns.again hturn (Returns.leave (by rfl))

end HyperliquidApi.HistoricalPrices
