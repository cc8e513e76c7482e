import HyperliquidApi.HistoricalPrices
import HyperliquidApi.FundingRates

/-!
# When the downloads end

The start of the next window is taken from the last record of the reply, so a reply that
ends before its own window moves the download back. Empty windows always move it on. A
download ends exactly when the server moves it back only finitely often.
-/
namespace HyperliquidApi
open WhileLoop

namespace HistoricalPrices
variable {getCandles : ℕ → ℤ → ℤ → Except String (List Candle)}
  {interval : CandleInterval} {toMs : ℤ} {s : Search}

/-- The reply to the next request keeps a last candle that has ended when the requested
window starts. -/
def SetBack (getCandles : ℕ → ℤ → ℤ → Except String (List Candle)) (interval : CandleInterval)
    (toMs : ℤ) (s : Search) : Prop :=
  s.batchFrom < toMs ∧ ∃ candles back,
    getCandles s.request s.batchFrom (batchEnd interval toMs s.batchFrom) = .ok candles ∧
    (dropOpen (numberOfMsForCandleInterval interval) toMs candles).getLast? = some back ∧
    back.startTime + numberOfMsForCandleInterval interval ≤ s.batchFrom

/-- The requests of a download that are answered with a setback. -/
def setbackRequests (getCandles : ℕ → ℤ → ℤ → Except String (List Candle)) (writer : Bool)
    (interval : CandleInterval) (fromMs toMs : ℤ) : Set ℕ :=
  {n | ∃ s, after (getHistoricalPricesTurn getCandles writer interval toMs) n (initial fromMs) = some s ∧
    SetBack getCandles interval toMs s}

/-- Only the branch that keeps candles can fail to move the search on. -/
lemma setBack_iff (writer : Bool) :
    (∃ s', getHistoricalPricesTurn getCandles writer interval toMs s = .again s' ∧
      (toMs - s.batchFrom).toNat ≤ (toMs - s'.batchFrom).toNat) ↔
    SetBack getCandles interval toMs s := by
  by_cases h : s.batchFrom < toMs
  · cases hr : getCandles s.request s.batchFrom (batchEnd interval toMs s.batchFrom) with
    | error e => simp [getHistoricalPricesTurn, h, hr, SetBack]
    | ok candles =>
      cases hk : (dropOpen (numberOfMsForCandleInterval interval) toMs candles).getLast? with
      | some back =>
        rw [turn_batch h hr hk]
        constructor
        · rintro ⟨s', ht, hle⟩
          obtain rfl := Turn.again.inj ht
          exact ⟨h, candles, back, hr, hk, by dsimp only at hle; omega⟩
        · rintro ⟨_, candles', back', hr', hk', hback⟩
          obtain rfl := Except.ok.inj (hr.symm.trans hr')
          obtain rfl := Option.some.inj (hk.symm.trans hk')
          exact ⟨_, rfl, by dsimp only; omega⟩
      | none =>
        have hno : ¬ SetBack getCandles interval toMs s := by
          simp [SetBack, hr, hk]
        refine iff_of_false ?_ hno
        rintro ⟨s', ht, hle⟩
        by_cases hne : candles = []
        · rw [turn_empty h (hne ▸ hr)] at ht
          split_ifs at ht
          obtain rfl := Turn.again.inj ht
          have := emptySkip_pos interval h
          dsimp only at hle
          omega
        · rw [turn_all_open h hne hr (List.getLast?_eq_none_iff.mp hk)] at ht
          cases ht
  · simp [turn_done (not_lt.mp h), SetBack, h]

theorem getHistoricalPrices_returns_iff (getCandles : ℕ → ℤ → ℤ → Except String (List Candle))
    (writer : Bool) (interval : CandleInterval) (fromMs toMs : ℤ) :
    (∃ d, Returns (getHistoricalPricesTurn getCandles writer interval toMs) (initial fromMs) d) ↔
      (setbackRequests getCandles writer interval fromMs toMs).Finite :=
  returns_iff_finite (fun _ => setBack_iff writer) (initial fromMs)

end HistoricalPrices

namespace FundingRates
variable {getFundingRatesPage : ℕ → ℤ → ℤ → Except String (List FundingRate)} {endTime : ℤ}
  {s : Paging}

/-- The next request is answered with a full page whose last record lies before the page. -/
def SetBack (getFundingRatesPage : ℕ → ℤ → ℤ → Except String (List FundingRate)) (endTime : ℤ)
    (s : Paging) : Prop :=
  s.pageStart < endTime ∧ ∃ page back, getFundingRatesPage s.request s.pageStart endTime = .ok page ∧
    page.getLast? = some back ∧ pageLimit ≤ page.length ∧ back.time < s.pageStart

/-- The requests of a download that are answered with a setback. -/
def setbackRequests (getFundingRatesPage : ℕ → ℤ → ℤ → Except String (List FundingRate))
    (startTime endTime : ℤ) : Set ℕ :=
  {n | ∃ s, after (getFundingRatesTurn getFundingRatesPage endTime) n (initial startTime) = some s ∧
    SetBack getFundingRatesPage endTime s}

lemma setBack_iff :
    (∃ s', getFundingRatesTurn getFundingRatesPage endTime s = .again s' ∧
      (endTime - s.pageStart).toNat ≤ (endTime - s'.pageStart).toNat) ↔
    SetBack getFundingRatesPage endTime s := by
  by_cases h : s.pageStart < endTime
  · cases hr : getFundingRatesPage s.request s.pageStart endTime with
    | error e => simp [getFundingRatesTurn, h, hr, SetBack]
    | ok page =>
      cases hb : page.getLast? with
      | none => simp [getFundingRatesTurn, h, hr, hb, SetBack]
      | some back =>
        by_cases hl : page.length < pageLimit
        · simp [getFundingRatesTurn, h, hr, hb, hl, SetBack]
        · simp only [getFundingRatesTurn, h, hr, hb, hl, if_true, if_false]
          constructor
          · rintro ⟨s', ht, hle⟩
            obtain rfl := Turn.again.inj ht
            exact ⟨h, page, back, hr, hb, not_lt.mp hl, by dsimp only at hle; omega⟩
          · rintro ⟨_, page', back', hr', hb', _, hback⟩
            obtain rfl := Except.ok.inj (hr.symm.trans hr')
            obtain rfl := Option.some.inj (hb.symm.trans hb')
            exact ⟨_, rfl, by dsimp only; omega⟩
  · simp [getFundingRatesTurn, h, SetBack]

theorem getFundingRates_returns_iff
    (getFundingRatesPage : ℕ → ℤ → ℤ → Except String (List FundingRate)) (startTime endTime : ℤ) :
    (∃ r, Returns (getFundingRatesTurn getFundingRatesPage endTime) (initial startTime) r) ↔
      (setbackRequests getFundingRatesPage startTime endTime).Finite :=
  returns_iff_finite (fun _ => setBack_iff) (initial startTime)

end FundingRates

/-- Both downloads return, whatever lists the server sends, exactly when the server sets
them back only finitely often. -/
theorem pagination_returns_iff (getCandles : ℕ → ℤ → ℤ → Except String (List Candle))
    (writer : Bool) (interval : CandleInterval) (fromMs toMs : ℤ)
    (getFundingRatesPage : ℕ → ℤ → ℤ → Except String (List FundingRate)) (startTime endTime : ℤ) :
    ((∃ d, Returns (HistoricalPrices.getHistoricalPricesTurn getCandles writer interval toMs)
        (HistoricalPrices.initial fromMs) d) ↔
      (HistoricalPrices.setbackRequests getCandles writer interval fromMs toMs).Finite) ∧
    ((∃ r, Returns (FundingRates.getFundingRatesTurn getFundingRatesPage endTime)
        (FundingRates.initial startTime) r) ↔
      (FundingRates.setbackRequests getFundingRatesPage startTime endTime).Finite) :=
  ⟨HistoricalPrices.getHistoricalPrices_returns_iff getCandles writer interval fromMs toMs,
    FundingRates.getFundingRates_returns_iff getFundingRatesPage startTime endTime⟩

/-- From a server whose replies end after the start that was asked for, both downloads return with
enough fuel. -/
theorem downloads_return {getCandles : ℕ → ℤ → ℤ → Except String (List Candle)} {writer : Bool}
    {interval : CandleInterval} {fromMs toMs : ℤ}
    {getFundingRatesPage : ℕ → ℤ → ℤ → Except String (List FundingRate)} {startTime endTime : ℤ}
    (hcandles : ∀ n a b candles back, getCandles n a b = .ok candles →
      (HistoricalPrices.dropOpen (numberOfMsForCandleInterval interval) toMs candles).getLast? =
        some back → a < back.startTime + numberOfMsForCandleInterval interval)
    (hpages : ∀ n a b page back, getFundingRatesPage n a b = .ok page →
      page.getLast? = some back → a ≤ back.time) :
    (∃ fuel d, HistoricalPrices.getHistoricalPrices getCandles writer interval fromMs toMs fuel =
      some d) ∧
    ∃ fuel r, FundingRates.getFundingRates getFundingRatesPage startTime endTime fuel = some r := by
  constructor
  · have hnone : HistoricalPrices.setbackRequests getCandles writer interval fromMs toMs = ∅ := by
      apply Set.eq_empty_of_forall_notMem
      rintro n ⟨s, -, -, candles, back, hreply, hback, hle⟩
      exact absurd hle (not_le.mpr (hcandles _ _ _ _ _ hreply hback))
    obtain ⟨d, fuel, hrun⟩ := (HistoricalPrices.getHistoricalPrices_returns_iff getCandles writer
      interval fromMs toMs).mpr (hnone ▸ Set.finite_empty)
    exact ⟨fuel, d, hrun⟩
  · have hnone : FundingRates.setbackRequests getFundingRatesPage startTime endTime = ∅ := by
      apply Set.eq_empty_of_forall_notMem
      rintro n ⟨s, -, -, page, back, hreply, hback, -, hlt⟩
      exact absurd hlt (not_lt.mpr (hpages _ _ _ _ _ hreply hback))
    obtain ⟨r, fuel, hrun⟩ := (FundingRates.getFundingRates_returns_iff getFundingRatesPage startTime
      endTime).mpr (hnone ▸ Set.finite_empty)
    exact ⟨fuel, r, hrun⟩

/-- A server that answers every request with the same candle. -/
def sameCandle (_ : ℕ) (_ _ : ℤ) : Except String (List Candle) :=
  .ok [⟨0, 3599999, "BTC", "1h", 1, 1, 1, 1, 1, 1⟩]

def oldRecord : FundingRate := ⟨"BTC", 1/80000, 0, 0⟩

/-- A server that answers every request with the same full page. -/
def samePage (_ : ℕ) (_ _ : ℤ) : Except String (List FundingRate) :=
  .ok (List.replicate FundingRates.pageLimit oldRecord)

/-- Asked for two o'clock on, a server that only has the candle of midnight is asked for ever;
likewise one that repeats a full page of old funding records. -/
theorem pagination_stuck :
    (¬ ∃ d, Returns (HistoricalPrices.getHistoricalPricesTurn sameCandle false ._1h 10800000)
      (HistoricalPrices.initial 7200000) d) ∧
    ¬ ∃ r, Returns (FundingRates.getFundingRatesTurn samePage 10800000)
      (FundingRates.initial 7200000) r := by
  constructor
  · refine not_returns_of_invariant (fun s => s.batchFrom < 10800000) (fun s hs => ?_)
      (by simp [HistoricalPrices.initial])
    refine ⟨_, HistoricalPrices.turn_batch hs rfl (by rfl), ?_⟩
    simp [numberOfMsForCandleInterval]
  · refine not_returns_of_invariant (fun s => s.pageStart < 10800000) (fun s hs => ?_)
      (by simp [FundingRates.initial])
    have hback : (List.replicate FundingRates.pageLimit oldRecord).getLast? = some oldRecord := by
      rw [List.getLast?_replicate, if_neg (by decide)]
    refine ⟨⟨s.retVal ++ List.replicate FundingRates.pageLimit oldRecord, 1, s.request + 1⟩, ?_, by simp⟩
    simp only [FundingRates.getFundingRatesTurn, if_pos hs, samePage, hback, List.length_replicate,
      lt_irrefl, if_false]
    rfl

end HyperliquidApi
