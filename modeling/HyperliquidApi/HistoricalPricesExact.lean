import HyperliquidApi.HistoricalPrices

/-!
# Coarse-interval candle history is exact

The server answers each window with exactly the candles of a history. For intervals whose
5000-candle window spans at least 30 days the windows tile the range, so the download is
the history's closed candles, whatever its gaps.
-/
namespace HyperliquidApi.HistoricalPrices
open WhileLoop AscendingLists

/-- A server that answers each request with exactly the candles whose start lies in it. -/
def candleSnapshot (S : List Candle) (_ : ℕ) (a b : ℤ) : List Candle :=
  S.filter fun c => a ≤ c.startTime ∧ c.startTime ≤ b

section Snapshot
variable {S : List Candle} {interval : CandleInterval} {fromMs toMs : ℤ} {writer : Bool}

lemma mem_candleSnapshot {n : ℕ} {a b : ℤ} {c : Candle} :
    c ∈ candleSnapshot S n a b ↔ c ∈ S ∧ a ≤ c.startTime ∧ c.startTime ≤ b := by
  simp [candleSnapshot]

lemma candleSnapshot_eq_nil {n : ℕ} {a b : ℤ} :
    candleSnapshot S n a b = [] ↔ ∀ c ∈ S, a ≤ c.startTime → b < c.startTime := by
  simp [candleSnapshot, List.filter_eq_nil_iff]

variable (spaced : Spaced (numberOfMsForCandleInterval interval) S)
include spaced

lemma dropOpen_candleSnapshot (n : ℕ) {a b : ℤ} (hb : b ≤ toMs) :
    dropOpen (numberOfMsForCandleInterval interval) toMs (candleSnapshot S n a b) =
      S.filter fun c => (a ≤ c.startTime ∧ c.startTime ≤ b) ∧
        c.startTime + numberOfMsForCandleInterval interval ≤ toMs := by
  have hd := numberOfMsForCandleInterval_pos interval
  have : IsTrans Candle fun a b =>
      a.startTime + numberOfMsForCandleInterval interval ≤ b.startTime :=
    ⟨fun a b c _ _ => by omega⟩
  have hsp : Spaced (numberOfMsForCandleInterval interval) (candleSnapshot S n a b) :=
    List.IsChain.sublist spaced List.filter_sublist
  rw [dropOpen_eq_filter hd hsp fun c hc => (mem_candleSnapshot.mp hc).2.2.trans hb]
  simp [candleSnapshot, List.filter_filter, Bool.and_comm]

lemma behind_back_iff {a b : ℤ} {back : Candle}
    (hback : (S.filter fun c => (a ≤ c.startTime ∧ c.startTime ≤ b) ∧
      c.startTime + numberOfMsForCandleInterval interval ≤ toMs).getLast? = some back)
    {c : Candle} (hc : c ∈ S) (ha : a ≤ c.startTime) :
    c.startTime < back.startTime + numberOfMsForCandleInterval interval ↔
      c.startTime ≤ b ∧ c.startTime + numberOfMsForCandleInterval interval ≤ toMs := by
  have hd := numberOfMsForCandleInterval_pos interval
  have hmem := List.mem_of_getLast? hback
  simp only [List.mem_filter, decide_eq_true_eq] at hmem
  constructor
  · intro hlt
    rcases pairwise_apart (spaced.pairwise hd) hc hmem.1 with rfl | h | h <;> omega
  · rintro ⟨hb, ho⟩
    have hasc := (spaced.ascending hd).filter fun c => (a ≤ c.startTime ∧ c.startTime ≤ b) ∧
      c.startTime + numberOfMsForCandleInterval interval ≤ toMs
    have hle : c.startTime ≤ back.startTime := hasc.le_getLast hback (by simp [hc, ha, hb, ho])
    omega

lemma open_after_all_open {n : ℕ} {a b : ℤ} (hb : b ≤ toMs)
    (hne : candleSnapshot S n a b ≠ [])
    (hd : dropOpen (numberOfMsForCandleInterval interval) toMs (candleSnapshot S n a b) = [])
    {c : Candle} (hc : c ∈ S) (ha : a ≤ c.startTime) :
    toMs < c.startTime + numberOfMsForCandleInterval interval := by
  obtain ⟨o, ho⟩ := List.exists_mem_of_ne_nil _ hne
  obtain ⟨hoS, hoa, hob⟩ := mem_candleSnapshot.mp ho
  rw [dropOpen_candleSnapshot spaced n hb, List.filter_eq_nil_iff] at hd
  have hopen := hd o hoS
  have hcopen := hd c hc
  simp only [decide_eq_true_eq, not_and, not_le] at hopen hcopen
  have hoto := hopen ⟨hoa, hob⟩
  by_cases hcb : c.startTime ≤ b
  · exact hcopen ⟨ha, hcb⟩
  · omega

end Snapshot

/-- A window of at least 30 days is never skipped coarsely. -/
lemma emptySkip_eq_window {interval : CandleInterval}
    (coarse : coarseSkipMs ≤ maxCandlesPerBatch * numberOfMsForCandleInterval interval)
    (toMs batchFrom : ℤ) :
    batchFrom + emptySkip interval toMs batchFrom = batchEnd interval toMs batchFrom := by
  simp only [emptySkip, batchEnd, maxCandlesPerBatch, coarseSkipMs] at *
  split_ifs <;> omega

/-- Every closed candle before `batchFrom` has been collected and the time since the last of
them has been searched. -/
structure Exact (S : List Candle) (interval : CandleInterval) (fromMs toMs : ℤ) (writer : Bool)
    (s : Search) : Prop where
  lower : fromMs ≤ s.batchFrom - s.emptySearchedMs
  upper : s.batchFrom ≤ toMs
  collected : s.retVal = S.filter fun c => fromMs ≤ c.startTime ∧ c.startTime < s.batchFrom
  closed : ∀ c ∈ S, fromMs ≤ c.startTime → c.startTime < s.batchFrom →
    c.startTime + numberOfMsForCandleInterval interval ≤ toMs
  written : writer = true → s.batches.flatten = s.retVal
  searched : s.emptySearchedMs = 0 ∨
    ∀ c ∈ S, s.batchFrom - s.emptySearchedMs ≤ c.startTime → s.batchFrom < c.startTime
  nonneg : 0 ≤ s.emptySearchedMs

section Exact
variable {S : List Candle} {interval : CandleInterval} {fromMs toMs : ℤ} {writer : Bool}

lemma initial_exact (h : fromMs < toMs) : Exact S interval fromMs toMs writer (initial fromMs) where
  lower := by simp [initial]
  upper := h.le
  collected := by
    refine (List.filter_eq_nil_iff.mpr fun c _ => ?_).symm
    rw [decide_eq_true_eq]
    exact fun hc => absurd hc.2 (not_lt.mpr hc.1)
  closed c _ hlo hhi := absurd hhi (not_lt.mpr hlo)
  written := by simp [initial]
  searched := Or.inl rfl
  nonneg := le_rfl

section Coarse
variable (coarse : coarseSkipMs ≤ maxCandlesPerBatch * numberOfMsForCandleInterval interval)
include coarse

lemma Exact.searched_window {s : Search} (h : Exact S interval fromMs toMs writer s)
    (hreply : candleSnapshot S s.request s.batchFrom (batchEnd interval toMs s.batchFrom) = [])
    {c : Candle} (hc : c ∈ S) (hlo : s.batchFrom - s.emptySearchedMs ≤ c.startTime) :
    s.batchFrom + emptySkip interval toMs s.batchFrom < c.startTime := by
  have hwindow := candleSnapshot_eq_nil.mp hreply c hc
  rw [emptySkip_eq_window coarse]
  rcases h.searched with he | hs
  · exact hwindow (by omega)
  · exact hwindow (hs c hc hlo).le

variable (spaced : Spaced (numberOfMsForCandleInterval interval) S)
include spaced

lemma Exact.again {s s' : Search} (h : Exact S interval fromMs toMs writer s)
    (ht : getHistoricalPricesTurn (fun n a b => .ok (candleSnapshot S n a b)) writer interval toMs s
      = .again s') :
    Exact S interval fromMs toMs writer s' ∧ s.batchFrom < toMs ∧ s.batchFrom < s'.batchFrom := by
  have hd := numberOfMsForCandleInterval_pos interval
  have hnonneg := h.nonneg
  have hlower := h.lower
  obtain ⟨hg, ⟨hreply, _, rfl⟩ | ⟨back, hback, rfl⟩⟩ := turn_again ht
  · have hpos := emptySkip_pos interval hg
    have hsearched := fun c (hc : c ∈ S) => h.searched_window coarse hreply hc
    refine ⟨⟨?_, emptySkip_le interval toMs _, ?_, ?_, h.written, Or.inr ?_, ?_⟩, hg, by dsimp only; omega⟩
    · dsimp only
      omega
    · rw [h.collected]
      refine List.filter_congr fun c hc => ?_
      have := hsearched c hc
      simp only [decide_eq_decide]
      omega
    · intro c hc hlo hhi
      have := hsearched c hc
      refine h.closed c hc hlo ?_
      dsimp only at hhi
      omega
    · intro c hc hlo
      dsimp only at hlo ⊢
      exact hsearched c hc (by omega)
    · dsimp only
      omega
  · have hend := batchEnd_le interval toMs s.batchFrom
    have hstart := batchEnd_gt interval hg
    rw [dropOpen_candleSnapshot spaced _ hend] at hback ⊢
    have hbehind := fun c (hc : c ∈ S) => behind_back_iff spaced hback hc
    have hmem := List.mem_of_getLast? hback
    simp only [List.mem_filter, decide_eq_true_eq] at hmem
    refine ⟨⟨?_, hmem.2.2, ?_, ?_, ?_, Or.inl rfl, le_rfl⟩, hg, by dsimp only; omega⟩
    · dsimp only
      omega
    · rw [h.collected]
      refine (spaced.ascending hd).filter_append_filter (fun c hc => ?_) fun a ha b hb hpa hqb => ?_
      · have := hbehind c hc
        simp only [← Bool.decide_or, decide_eq_decide]
        omega
      · simp only [decide_eq_true_eq] at hpa hqb
        omega
    · intro c hc hlo hhi
      by_cases hb : c.startTime < s.batchFrom
      · exact h.closed c hc hlo hb
      · exact ((hbehind c hc (by omega)).mp hhi).2
    · intro hw
      simp [hw, h.written hw]

variable (dense : ∀ a, fromMs ≤ a → a + maxEmptySearchMs ≤ toMs →
  ∃ c ∈ S, a ≤ c.startTime ∧ c.startTime ≤ a + maxEmptySearchMs)
include dense

lemma Exact.leave {s : Search} {d : Download} (h : Exact S interval fromMs toMs writer s)
    (ht : getHistoricalPricesTurn (fun n a b => .ok (candleSnapshot S n a b)) writer interval toMs s
      = .leave d) :
    d = ⟨.ok s.retVal, s.batches⟩ ∧ s.retVal = S.filter fun c => fromMs ≤ c.startTime ∧
      c.startTime + numberOfMsForCandleInterval interval ≤ toMs := by
  have hd := numberOfMsForCandleInterval_pos interval
  have hupper := h.upper
  have hlower := h.lower
  have hnonneg := h.nonneg
  obtain ⟨hout, hg | ⟨hg, hreply, hcut⟩ | ⟨hg, hreply, hopen⟩⟩ := turn_leave ht <;>
    refine ⟨hout, ?_⟩
  · rw [h.collected]
    refine List.filter_congr fun c hc => ?_
    have := h.closed c hc
    simp only [decide_eq_decide]
    omega
  · -- five years without a candle: excluded by the density of the history
    have hskip := emptySkip_le interval toMs s.batchFrom
    obtain ⟨c, hc, hlo, hhi⟩ := dense (s.batchFrom - s.emptySearchedMs) hlower (by omega)
    have := h.searched_window coarse hreply hc hlo
    omega
  · rw [h.collected]
    refine List.filter_congr fun c hc => ?_
    have hclosed := h.closed c hc
    have hafter := open_after_all_open spaced (batchEnd_le interval toMs s.batchFrom) hreply hopen hc
    simp only [decide_eq_decide]
    omega

/-- For a coarse interval and a history without a five-year hole, the download is exactly the
history's closed candles from `fromMs` on, and the writer has seen all of them in order. -/
theorem getHistoricalPrices_exact (h : fromMs < toMs) :
    ∃ candles batches,
      Returns (getHistoricalPricesTurn (fun n a b => .ok (candleSnapshot S n a b)) writer interval toMs)
        (initial fromMs) ⟨.ok candles, batches⟩ ∧
      candles = S.filter (fun c => fromMs ≤ c.startTime ∧
        c.startTime + numberOfMsForCandleInterval interval ≤ toMs) ∧
      candles.Pairwise (fun a b => a.startTime < b.startTime) ∧
      (writer = true → batches.flatten = candles) := by
  obtain ⟨d, hr, s, hs, rfl, hall⟩ :=
    returns_of_invariant (Exact S interval fromMs toMs writer)
      (fun d => ∃ s, Exact S interval fromMs toMs writer s ∧
        d = ⟨.ok s.retVal, s.batches⟩ ∧ s.retVal = S.filter fun c => fromMs ≤ c.startTime ∧
          c.startTime + numberOfMsForCandleInterval interval ≤ toMs)
      (fun s => (toMs - s.batchFrom).toNat)
      (fun s s' hs ht => by
        obtain ⟨hinv, hg, hlt⟩ := hs.again coarse spaced ht
        exact ⟨hinv, by omega⟩)
      (fun s d hs ht => ⟨s, hs, hs.leave coarse spaced dense ht⟩) (initial_exact h)
  refine ⟨s.retVal, s.batches, hr, hall, ?_, hs.written⟩
  rw [hall]
  exact (spaced.ascending (numberOfMsForCandleInterval_pos interval)).filter _

end Coarse

end Exact

def thirdYear : List Candle := [⟨94608000000, 94694399999, "BTC", "1d", 1, 1, 1, 1, 1, 1⟩]

theorem getHistoricalPrices_exact_six_years :
    ∃ candles batches,
      Returns (getHistoricalPricesTurn (fun n a b => .ok (candleSnapshot thirdYear n a b)) true ._1d
        189216000000) (initial 0) ⟨.ok candles, batches⟩ ∧
      candles = thirdYear.filter (fun c => 0 ≤ c.startTime ∧
        c.startTime + numberOfMsForCandleInterval ._1d ≤ 189216000000) ∧
      candles.Pairwise (fun a b => a.startTime < b.startTime) ∧
      (true = true → batches.flatten = candles) := by
  refine getHistoricalPrices_exact (by decide) (by simp [Spaced, thirdYear]) (fun a ha hb => ?_)
    (by omega)
  simp only [maxEmptySearchMs] at hb ⊢
  exact ⟨_, List.mem_singleton_self _, by dsimp only; omega, by dsimp only; omega⟩

end HyperliquidApi.HistoricalPrices
