import HyperliquidApi.HistoricalPricesExact

/-!
# Recent candles are not missed

Coarse skipping never jumps into the last 30 days of the range, so the tail is searched
window by window, for every interval. What can keep a recent candle out is the cut-off:
a search that skips five years in a row gives up where it stands.
-/
namespace HyperliquidApi.HistoricalPrices
open WhileLoop AscendingLists

/-- The search moves from `p` over windows without a candle of the history. -/
inductive EmptyTo (S : List Candle) (interval : CandleInterval) (toMs p : ℤ) : ℤ → Prop
  | refl : EmptyTo S interval toMs p p
  | skip {q : ℤ} (prior : EmptyTo S interval toMs p q) (inside : q < toMs)
      (empty : ∀ c ∈ S, q ≤ c.startTime → batchEnd interval toMs q < c.startTime) :
      EmptyTo S interval toMs p (q + emptySkip interval toMs q)

/-- A search that starts over at `p` skips at least five years without finding a candle. -/
def CutOff (S : List Candle) (interval : CandleInterval) (toMs p : ℤ) : Prop :=
  ∃ q, EmptyTo S interval toMs p q ∧ q ≤ toMs ∧ p + maxEmptySearchMs ≤ q

/-- The places the search starts over at: `fromMs` and the end of each returned candle. -/
def Restart (interval : CandleInterval) (fromMs : ℤ) (candles : List Candle) (p : ℤ) : Prop :=
  p = fromMs ∨ ∃ c ∈ candles, p = c.startTime + numberOfMsForCandleInterval interval

lemma Restart.append {interval : CandleInterval} {fromMs p : ℤ} {candles : List Candle}
    (h : Restart interval fromMs candles p) (more : List Candle) :
    Restart interval fromMs (candles ++ more) p := by
  rcases h with rfl | ⟨c, hc, rfl⟩
  · exact Or.inl rfl
  · exact Or.inr ⟨c, by simp [hc], rfl⟩

/-- A coarse skip never jumps into the last 30 days. -/
lemma recent_after_skip {interval : CandleInterval} {toMs batchFrom t : ℤ}
    (hrecent : toMs - coarseSkipMs ≤ t) (hahead : batchEnd interval toMs batchFrom < t) :
    batchFrom + emptySkip interval toMs batchFrom ≤ t := by
  simp only [emptySkip, coarseSkipMs] at *
  split_ifs <;> omega

/-- Recent closed candles behind `batchFrom` have been collected, and the search has come here
over empty windows only since it last started over. -/
structure Searched (S : List Candle) (interval : CandleInterval) (fromMs toMs : ℤ) (s : Search) :
    Prop where
  lower : fromMs ≤ s.batchFrom
  upper : s.batchFrom ≤ toMs
  collected : ∀ c ∈ S, fromMs ≤ c.startTime → toMs - coarseSkipMs ≤ c.startTime →
    c.startTime + numberOfMsForCandleInterval interval ≤ toMs → c.startTime < s.batchFrom →
    c ∈ s.retVal
  restart : Restart interval fromMs s.retVal (s.batchFrom - s.emptySearchedMs)
  emptyTo : EmptyTo S interval toMs (s.batchFrom - s.emptySearchedMs) s.batchFrom

def Recent (interval : CandleInterval) (fromMs toMs : ℤ) (c : Candle) : Prop :=
  max fromMs (toMs - coarseSkipMs) ≤ c.startTime ∧
    c.startTime + numberOfMsForCandleInterval interval ≤ toMs

section Recent
variable {S : List Candle} {interval : CandleInterval} {fromMs toMs : ℤ} {writer : Bool}

lemma initial_searched (h : fromMs < toMs) : Searched S interval fromMs toMs (initial fromMs) where
  lower := le_rfl
  upper := h.le
  collected _ _ hlo _ _ hhi := absurd hhi (not_lt.mpr hlo)
  restart := Or.inl (by simp [initial])
  emptyTo := by
    simp only [initial, sub_zero]
    exact .refl

variable (spaced : Spaced (numberOfMsForCandleInterval interval) S)
include spaced

lemma Searched.again {s s' : Search} (h : Searched S interval fromMs toMs s)
    (ht : getHistoricalPricesTurn (fun n a b => .ok (candleSnapshot S n a b)) writer interval toMs s
      = .again s') :
    Searched S interval fromMs toMs s' ∧ s.batchFrom < toMs ∧ s.batchFrom < s'.batchFrom := by
  have hd := numberOfMsForCandleInterval_pos interval
  have hlower := h.lower
  obtain ⟨hg, ⟨hreply, _, rfl⟩ | ⟨back, hback, rfl⟩⟩ := turn_again ht
  · have hpos := emptySkip_pos interval hg
    have hempty := candleSnapshot_eq_nil.mp hreply
    have hsub : s.batchFrom + emptySkip interval toMs s.batchFrom -
        (s.emptySearchedMs + emptySkip interval toMs s.batchFrom) = s.batchFrom - s.emptySearchedMs := by
      ring
    refine ⟨⟨by dsimp only; omega, emptySkip_le interval toMs _, ?_, ?_, ?_⟩, hg, by dsimp only; omega⟩
    · intro c hc hlo hrecent hclosed hhi
      by_cases hb : c.startTime < s.batchFrom
      · exact h.collected c hc hlo hrecent hclosed hb
      · have := recent_after_skip hrecent (hempty c hc (by omega))
        dsimp only at hhi
        omega
    · simpa only [hsub] using h.restart
    · simpa only [hsub] using h.emptyTo.skip hg hempty
  · have hend := batchEnd_le interval toMs s.batchFrom
    rw [dropOpen_candleSnapshot spaced _ hend] at hback ⊢
    have hmem := List.mem_of_getLast? hback
    simp only [List.mem_filter, decide_eq_true_eq] at hmem
    refine ⟨⟨by dsimp only; omega, hmem.2.2, ?_, ?_, ?_⟩, hg, by dsimp only; omega⟩
    · intro c hc hlo hrecent hclosed hhi
      by_cases hb : c.startTime < s.batchFrom
      · exact List.mem_append_left _ (h.collected c hc hlo hrecent hclosed hb)
      · have hwin := (behind_back_iff spaced hback hc (not_lt.mp hb)).mp hhi
        refine List.mem_append_right _ (List.mem_filter.mpr ⟨hc, ?_⟩)
        simp only [decide_eq_true_eq]
        exact ⟨⟨not_lt.mp hb, hwin.1⟩, hwin.2⟩
    · simp only [sub_zero]
      exact Or.inr ⟨back, List.mem_append_right _ (List.mem_of_getLast? hback), rfl⟩
    · simp only [sub_zero]
      exact .refl

lemma Searched.leave {s : Search} {d : Download} (h : Searched S interval fromMs toMs s)
    (ht : getHistoricalPricesTurn (fun n a b => .ok (candleSnapshot S n a b)) writer interval toMs s
      = .leave d) :
    d = ⟨.ok s.retVal, s.batches⟩ ∧
      ((∀ c ∈ S, Recent interval fromMs toMs c → c ∈ s.retVal) ∨
        ∃ p, Restart interval fromMs s.retVal p ∧ CutOff S interval toMs p) := by
  have hd := numberOfMsForCandleInterval_pos interval
  obtain ⟨hout, hg | ⟨hg, hreply, hcut⟩ | ⟨hg, hreply, hopen⟩⟩ := turn_leave ht <;>
    refine ⟨hout, ?_⟩
  · refine Or.inl fun c hc hr => ?_
    obtain ⟨hlo, hrecent⟩ := max_le_iff.mp hr.1
    exact h.collected c hc hlo hrecent hr.2 (by have := hr.2; omega)
  · exact Or.inr ⟨_, h.restart, _, h.emptyTo.skip hg (candleSnapshot_eq_nil.mp hreply),
      emptySkip_le interval toMs _, by omega⟩
  · refine Or.inl fun c hc hr => ?_
    obtain ⟨hlo, hrecent⟩ := max_le_iff.mp hr.1
    by_cases hb : c.startTime < s.batchFrom
    · exact h.collected c hc hlo hrecent hr.2 hb
    · have := open_after_all_open spaced (batchEnd_le interval toMs _) hreply hopen hc (not_lt.mp hb)
      exact absurd hr.2 (not_le.mpr this)

/-- Every closed candle of the last 30 days is returned unless the search was cut off: from
`fromMs` or from the end of a returned candle on it skipped five years of empty windows. -/
theorem getHistoricalPrices_recent (h : fromMs < toMs) :
    ∃ candles batches,
      Returns (getHistoricalPricesTurn (fun n a b => .ok (candleSnapshot S n a b)) writer interval toMs)
        (initial fromMs) ⟨.ok candles, batches⟩ ∧
      ((∀ c ∈ S, Recent interval fromMs toMs c → c ∈ candles) ∨
        ∃ p, Restart interval fromMs candles p ∧ CutOff S interval toMs p) := by
  obtain ⟨d, hr, s, rfl, hpost⟩ :=
    returns_of_invariant (Searched S interval fromMs toMs)
      (fun d => ∃ s : Search, d = ⟨.ok s.retVal, s.batches⟩ ∧
        ((∀ c ∈ S, Recent interval fromMs toMs c → c ∈ s.retVal) ∨
          ∃ p, Restart interval fromMs s.retVal p ∧ CutOff S interval toMs p))
      (fun s => (toMs - s.batchFrom).toNat)
      (fun s s' hs ht => by
        obtain ⟨hinv, hg, hlt⟩ := hs.again spaced ht
        exact ⟨hinv, by omega⟩)
      (fun s d hs ht => ⟨s, hs.leave spaced ht⟩) (initial_searched h)
  exact ⟨s.retVal, s.batches, hr, hpost⟩

end Recent

/-- The cut-off takes a range of at least five years. -/
theorem CutOff.five_years {S : List Candle} {interval : CandleInterval} {fromMs toMs p : ℤ}
    {candles : List Candle} (hp : Restart interval fromMs candles p)
    (hfrom : ∀ c ∈ candles, fromMs ≤ c.startTime) (h : CutOff S interval toMs p) :
    fromMs + maxEmptySearchMs ≤ toMs := by
  have hd := numberOfMsForCandleInterval_pos interval
  obtain ⟨q, _, hq, hcut⟩ := h
  rcases hp with rfl | ⟨c, hc, rfl⟩
  · omega
  · have := hfrom c hc
    omega

/-- A coin first traded in the last eight hours of a range of twenty years. -/
def newListing : List Candle := [⟨630691200000, 630719999999, "NEW", "8h", 1, 1, 1, 1, 1, 1⟩]

theorem getHistoricalPrices_recent_one_year :
    ∃ candles batches,
      Returns (getHistoricalPricesTurn (fun n a b => .ok (candleSnapshot newListing n a b)) false ._8h
        630720000000) (initial 599184000000) ⟨.ok candles, batches⟩ ∧
      ((∀ c ∈ newListing, Recent ._8h 599184000000 630720000000 c → c ∈ candles) ∨
        ∃ p, Restart ._8h 599184000000 candles p ∧ CutOff newListing ._8h 630720000000 p) :=
  getHistoricalPrices_recent (by simp [Spaced, newListing]) (by omega)

/-- Asked for all twenty years, the search gives up after two empty windows of 4.5 years each. -/
theorem getHistoricalPrices_misses_new_listing :
    Spaced (numberOfMsForCandleInterval ._8h) newListing ∧ (0 : ℤ) < 630720000000 ∧
      ¬ ∃ candles batches,
        Returns (getHistoricalPricesTurn (fun n a b => .ok (candleSnapshot newListing n a b)) false ._8h
          630720000000) (initial 0) ⟨.ok candles, batches⟩ ∧
        ∀ c ∈ newListing, Recent ._8h 0 630720000000 c → c ∈ candles := by
  refine ⟨by simp [Spaced, newListing], by omega, ?_⟩
  rintro ⟨candles, batches, hr, hall⟩
  have hfirst : getHistoricalPricesTurn (fun n a b => .ok (candleSnapshot newListing n a b)) false ._8h
      630720000000 (initial 0) = .again ⟨[], [], 144000000000, 144000000000, 1⟩ := by rfl
  have hempty := Returns.again hfirst (.leave (r := ⟨.ok [], []⟩) (by rfl))
  obtain ⟨rfl, rfl⟩ : [] = candles ∧ [] = batches := by simpa using hempty.unique hr
  have := hall _ (List.mem_singleton_self _) (by unfold Recent; decide)
  simp at this

end HyperliquidApi.HistoricalPrices
