import HyperliquidApi.WhileLoop
import HyperliquidApi.AscendingLists
import HyperliquidApi.Models

/-!
# Funding rate history

`getFundingRates` walks the history in pages of at most 500 records. Against a server
that answers with the earliest records of the window it returns the whole inclusive
range except when a page boundary leaves only the very last millisecond to ask for.
-/
namespace HyperliquidApi.FundingRates
open WhileLoop AscendingLists

def pageLimit : ℕ := 500

/-- The locals of the paging loop; `request` counts the pages asked for so far. -/
structure Paging where
  retVal : List FundingRate
  pageStart : ℤ
  request : ℕ
  deriving DecidableEq

def initial (startTime : ℤ) : Paging := ⟨[], startTime, 0⟩

/-- One turn of the loop of `getFundingRates`. The page request may answer differently
every time it is made, and may throw. -/
def getFundingRatesTurn (getFundingRatesPage : ℕ → ℤ → ℤ → Except String (List FundingRate))
    (endTime : ℤ) (s : Paging) : Turn Paging (Except String (List FundingRate)) :=
  if s.pageStart < endTime then
    match getFundingRatesPage s.request s.pageStart endTime with
    | .error e => .leave (.error e)
    | .ok page =>
      match page.getLast? with
      | none => .leave (.ok s.retVal)
      | some back =>
        let retVal := s.retVal ++ page
        if page.length < pageLimit then .leave (.ok retVal)
        else .again ⟨retVal, back.time + 1, s.request + 1⟩
  else .leave (.ok s.retVal)

def getFundingRates (getFundingRatesPage : ℕ → ℤ → ℤ → Except String (List FundingRate))
    (startTime endTime : ℤ) (fuel : ℕ) : Option (Except String (List FundingRate)) :=
  run (getFundingRatesTurn getFundingRatesPage endTime) fuel (initial startTime)

section Server
variable (S : List FundingRate)

def inRange (a b : ℤ) : List FundingRate :=
  (S.filter fun r => a ≤ r.time ∧ r.time ≤ b).mergeSort fun r r' => r.time ≤ r'.time

/-- A server that answers every page with the earliest records of the window. -/
def earliestPage (a b : ℤ) : Except String (List FundingRate) := .ok ((inRange S a b).take pageLimit)

lemma mem_inRange {a b : ℤ} {r : FundingRate} :
    r ∈ inRange S a b ↔ r ∈ S ∧ a ≤ r.time ∧ r.time ≤ b := by
  simp [inRange]

lemma inRange_length (a b : ℤ) :
    (inRange S a b).length = (S.filter fun r => a ≤ r.time ∧ r.time ≤ b).length :=
  (List.mergeSort_perm _ _).length_eq

variable {S} (distinct : (S.map FundingRate.time).Nodup)
include distinct

lemma inRange_ascending (a b : ℤ) : Ascending FundingRate.time (inRange S a b) :=
  ascending_mergeSort (distinct.sublist (List.filter_sublist.map _))

lemma eq_inRange {l : List FundingRate} {a b : ℤ} (h : Ascending FundingRate.time l)
    (hm : ∀ r, r ∈ l ↔ r ∈ S ∧ a ≤ r.time ∧ r.time ≤ b) : l = inRange S a b :=
  h.ext (inRange_ascending distinct a b) fun r => (hm r).trans (mem_inRange S).symm

/-- What is left of a window after a prefix of it is the window after the prefix's last record. -/
lemma inRange_behind {a b : ℤ} {page rest : List FundingRate} {back : FundingRate}
    (h : inRange S a b = page ++ rest) (hback : page.getLast? = some back) :
    inRange S (back.time + 1) b = rest := by
  have hasc := inRange_ascending distinct a b
  rw [h] at hasc
  obtain ⟨hpage, hrest, hlt⟩ := List.pairwise_append.mp hasc
  have hmem : back ∈ page := List.mem_of_getLast? hback
  have hS : ∀ r, r ∈ page ++ rest ↔ r ∈ S ∧ a ≤ r.time ∧ r.time ≤ b := fun r => h ▸ mem_inRange S
  refine (eq_inRange distinct hrest fun r => ⟨fun hr => ?_, fun ⟨hr, hlo, hhi⟩ => ?_⟩).symm
  · have := (hS r).mp (by simp [hr])
    have := hlt back hmem r hr
    exact ⟨by tauto, by omega, by tauto⟩
  · have hb := (hS back).mp (by simp [hmem])
    rcases List.mem_append.mp ((hS r).mpr ⟨hr, by omega, hhi⟩) with hp | hr
    · have := Ascending.le_getLast hpage hback hp
      omega
    · exact hr

lemma inRange_snoc {a b : ℤ} (hab : a ≤ b) {e : FundingRate} (he : e ∈ S) (hb : e.time = b) :
    inRange S a b = inRange S a (b-1) ++ [e] := by
  refine (eq_inRange distinct ?_ fun r => ?_).symm
  · refine (inRange_ascending distinct a (b-1)).append (List.pairwise_singleton _ _) ?_
    intro r hr e' he'
    have := ((mem_inRange S).mp hr).2.2
    rw [List.mem_singleton.mp he']
    omega
  · simp only [List.mem_append, mem_inRange, List.mem_singleton]
    constructor
    · rintro (⟨hr, hlo, hhi⟩ | rfl)
      · exact ⟨hr, hlo, by omega⟩
      · exact ⟨he, by omega, by omega⟩
    · rintro ⟨hr, hlo, hhi⟩
      by_cases ht : r.time = b
      · exact Or.inr (List.inj_on_of_nodup_map distinct hr he (by omega))
      · exact Or.inl ⟨hr, hlo, by omega⟩

end Server

/-- What the documentation promises of a download: the records of the inclusive range,
ascending and each once. -/
def ExactRange (S : List FundingRate) (startTime endTime : ℤ) (rates : List FundingRate) : Prop :=
  Ascending FundingRate.time rates ∧
    ∀ r, r ∈ rates ↔ r ∈ S ∧ startTime ≤ r.time ∧ r.time ≤ endTime

/-- The inputs on which the loop guard cuts off the last millisecond: there is a record at
`endTime`, and the window is a single millisecond or full pages end exactly one before it. -/
def EndRecordSkipped (S : List FundingRate) (startTime endTime : ℤ) : Prop :=
  (∃ r ∈ S, r.time = endTime) ∧
    (startTime = endTime ∨ (startTime < endTime ∧ (∃ r ∈ S, r.time = endTime - 1) ∧
      pageLimit ∣ (S.filter fun r => startTime ≤ r.time ∧ r.time ≤ endTime - 1).length))

/-- What holds at the head of the loop: the records so far are the full pages of a prefix
of the range, and the next page starts right behind them. -/
structure PagingInv (S : List FundingRate) (startTime endTime : ℤ) (s : Paging) : Prop where
  split : inRange S startTime endTime = s.retVal ++ inRange S s.pageStart endTime
  full : pageLimit ∣ s.retVal.length
  position : s.retVal = [] ∧ s.pageStart = startTime ∨
    ∃ back, s.retVal.getLast? = some back ∧ s.pageStart = back.time + 1

section Run
variable {S : List FundingRate} {startTime endTime : ℤ}

lemma initial_inv : PagingInv S startTime endTime (initial startTime) :=
  ⟨by simp [initial], by simp [initial], Or.inl ⟨rfl, rfl⟩⟩

lemma PagingInv.pageStart_ge {s : Paging} (h : PagingInv S startTime endTime s) :
    startTime ≤ s.pageStart := by
  rcases h.position with ⟨_, he⟩ | ⟨back, hback, he⟩
  · exact he.ge
  · have hm : back ∈ inRange S startTime endTime := by
      rw [h.split]
      simp [List.mem_of_getLast? hback]
    have := ((mem_inRange S).mp hm).2.1
    omega

lemma turn_cases (S : List FundingRate) (endTime : ℤ) (s : Paging) :
    let rest := inRange S s.pageStart endTime
    let turn := getFundingRatesTurn (fun _ => earliestPage S) endTime s
    (endTime ≤ s.pageStart ∧ turn = .leave (.ok s.retVal)) ∨
    (s.pageStart < endTime ∧ rest.length < pageLimit ∧ turn = .leave (.ok (s.retVal ++ rest))) ∨
    (s.pageStart < endTime ∧ pageLimit ≤ rest.length ∧
      ∃ back, (rest.take pageLimit).getLast? = some back ∧
        turn = .again ⟨s.retVal ++ rest.take pageLimit, back.time + 1, s.request + 1⟩) := by
  intro rest turn
  by_cases hg : s.pageStart < endTime
  · refine Or.inr ?_
    by_cases hl : rest.length < pageLimit
    · refine Or.inl ⟨hg, hl, ?_⟩
      have ht : rest.take pageLimit = rest := List.take_of_length_le hl.le
      cases hb : rest.getLast? with
      | none =>
        have : rest = [] := List.getLast?_eq_none_iff.mp hb
        simp [turn, getFundingRatesTurn, hg, earliestPage, rest, this]
      | some back => simp [turn, getFundingRatesTurn, hg, earliestPage, rest, ht, hb, hl]
    · have hne : rest.take pageLimit ≠ [] := by
        simp only [ne_eq, List.take_eq_nil_iff, pageLimit]
        rintro (h | h)
        · omega
        · simp [h, pageLimit] at hl
      refine Or.inr ⟨hg, by omega, (rest.take pageLimit).getLast hne, List.getLast?_eq_some_getLast hne, ?_⟩
      have hlen : (rest.take pageLimit).length = pageLimit := by simp; omega
      simp [turn, getFundingRatesTurn, hg, earliestPage, rest, List.getLast?_eq_some_getLast hne, hlen]
  · exact Or.inl ⟨by omega, by simp [turn, getFundingRatesTurn, hg]⟩

variable (distinct : (S.map FundingRate.time).Nodup)
include distinct

lemma PagingInv.again {s s' : Paging} (h : PagingInv S startTime endTime s)
    (ht : getFundingRatesTurn (fun _ => earliestPage S) endTime s = .again s') :
    PagingInv S startTime endTime s' ∧ s.pageStart < endTime ∧ s.pageStart < s'.pageStart := by
  obtain ⟨_, he⟩ | ⟨_, _, he⟩ | ⟨hg, hl, back, hback, he⟩ := turn_cases S endTime s
  · simp [he] at ht
  · simp [he] at ht
  · obtain rfl := Turn.again.inj (he.symm.trans ht)
    have hsplit := (List.take_append_drop pageLimit (inRange S s.pageStart endTime)).symm
    have hmem := (mem_inRange S).mp (List.mem_of_mem_take (List.mem_of_getLast? hback))
    refine ⟨⟨?_, ?_, Or.inr ⟨back, ?_, rfl⟩⟩, hg, by simp only; omega⟩
    · simp only [inRange_behind distinct hsplit hback]
      rw [h.split, List.append_assoc, ← hsplit]
    · simp only [List.length_append, List.length_take, min_eq_left hl]
      exact dvd_add h.full dvd_rfl
    · simp [List.getLast?_append, hback]

lemma length_below_end (h : startTime ≤ endTime) {e : FundingRate} (he : e ∈ S)
    (hend : e.time = endTime) :
    (inRange S startTime endTime).length =
      (S.filter fun r => startTime ≤ r.time ∧ r.time ≤ endTime - 1).length + 1 := by
  rw [inRange_snoc distinct h he hend, List.length_append, inRange_length]
  rfl

lemma not_skipped_of_full (h : startTime ≤ endTime)
    (hfull : pageLimit ∣ (inRange S startTime endTime).length) :
    ¬ EndRecordSkipped S startTime endTime := by
  rintro ⟨⟨e, he, hend⟩, hcase⟩
  rw [length_below_end distinct h he hend] at hfull
  rcases hcase with rfl | ⟨_, _, hcount⟩
  · have hz : (S.filter fun r => startTime ≤ r.time ∧ r.time ≤ startTime - 1) = [] := by
      apply List.filter_eq_nil_iff.mpr
      intro r _
      simp only [decide_eq_true_eq]
      omega
    simp only [hz, List.length_nil, zero_add, Nat.dvd_one] at hfull
    simp [pageLimit] at hfull
  · have hone := Nat.dvd_one.mp ((Nat.dvd_add_right hcount).mp hfull)
    simp [pageLimit] at hone

lemma PagingInv.not_skipped_of_short (h : startTime ≤ endTime) {s : Paging}
    (hs : PagingInv S startTime endTime s) (hg : s.pageStart < endTime)
    (hl : (inRange S s.pageStart endTime).length < pageLimit) :
    ¬ EndRecordSkipped S startTime endTime := by
  rintro ⟨⟨e, he, hend⟩, hcase⟩
  have hstart := hs.pageStart_ge
  rcases hcase with rfl | ⟨_, ⟨e', he', hend'⟩, hcount⟩
  · omega
  -- the rest holds the two records at the end, yet its length is one modulo the page size
  have htwo : 2 ≤ (inRange S s.pageStart endTime).length := by
    rw [length_below_end distinct hg.le he hend]
    have : e' ∈ S.filter fun r => s.pageStart ≤ r.time ∧ r.time ≤ endTime - 1 := by
      simp only [List.mem_filter, decide_eq_true_eq]
      exact ⟨he', by omega, by omega⟩
    have := List.length_pos_of_mem this
    omega
  have hlen := congrArg List.length hs.split
  rw [length_below_end distinct h he hend, List.length_append] at hlen
  have hfull := hs.full
  simp only [pageLimit] at *
  omega

lemma PagingInv.exact_iff_of_guard (h : startTime ≤ endTime) {s : Paging}
    (hs : PagingInv S startTime endTime s) (hg : endTime ≤ s.pageStart) :
    s.retVal = inRange S startTime endTime ↔ ¬ EndRecordSkipped S startTime endTime := by
  cases hrest : inRange S s.pageStart endTime with
  | nil =>
    have he : inRange S startTime endTime = s.retVal := by simpa [hrest] using hs.split
    exact iff_of_true he.symm (not_skipped_of_full distinct h (he ▸ hs.full))
  | cons e tail =>
    have hne : s.retVal ≠ inRange S startTime endTime := by
      rw [hs.split, hrest]
      simp
    have he := (mem_inRange S).mp (hrest ▸ List.mem_cons_self : e ∈ inRange S s.pageStart endTime)
    refine iff_of_false hne (not_not.mpr ⟨⟨e, he.1, by omega⟩, ?_⟩)
    rcases hs.position with ⟨_, hp⟩ | ⟨back, hback, hp⟩
    · exact Or.inl (by omega)
    · have hm : back ∈ inRange S startTime endTime := by
        rw [hs.split]
        simp [List.mem_of_getLast? hback]
      have hb := (mem_inRange S).mp hm
      have hlen := congrArg List.length hs.split
      have hrestlen : (inRange S s.pageStart endTime).length = 1 := by
        rw [length_below_end distinct (by omega : s.pageStart ≤ endTime) he.1 (by omega)]
        simp only [Nat.add_eq_right, List.length_eq_zero_iff, List.filter_eq_nil_iff, decide_eq_true_eq]
        intro r _
        omega
      rw [length_below_end distinct h he.1 (by omega), List.length_append, hrestlen] at hlen
      refine Or.inr ⟨by omega, ⟨back, hb.1, by omega⟩, ?_⟩
      rw [Nat.add_right_cancel hlen]
      exact hs.full

lemma PagingInv.leave (h : startTime ≤ endTime) {s : Paging} {r : Except String (List FundingRate)}
    (hs : PagingInv S startTime endTime s)
    (ht : getFundingRatesTurn (fun _ => earliestPage S) endTime s = .leave r) :
    ∃ rates, r = .ok rates ∧
      (rates = inRange S startTime endTime ↔ ¬ EndRecordSkipped S startTime endTime) := by
  obtain ⟨hg, he⟩ | ⟨hg, hl, he⟩ | ⟨_, _, _, _, he⟩ := turn_cases S endTime s
  · obtain rfl := Turn.leave.inj (he.symm.trans ht)
    exact ⟨s.retVal, rfl, hs.exact_iff_of_guard distinct h hg⟩
  · obtain rfl := Turn.leave.inj (he.symm.trans ht)
    exact ⟨_, rfl, iff_of_true hs.split.symm (hs.not_skipped_of_short distinct h hg hl)⟩
  · simp [he] at ht

/-- The download always ends against the honest server, with the whole range or without its
last record. -/
theorem getFundingRates_returns (h : startTime ≤ endTime) :
    ∃ rates, Returns (getFundingRatesTurn (fun _ => earliestPage S) endTime) (initial startTime)
        (.ok rates) ∧
      (rates = inRange S startTime endTime ↔ ¬ EndRecordSkipped S startTime endTime) := by
  obtain ⟨r, hr, rates, rfl, hiff⟩ :=
    returns_of_invariant (PagingInv S startTime endTime)
      (fun r => ∃ rates, r = .ok rates ∧
        (rates = inRange S startTime endTime ↔ ¬ EndRecordSkipped S startTime endTime))
      (fun s => (endTime - s.pageStart).toNat)
      (fun s s' hs ht => by
        obtain ⟨hinv, hg, hlt⟩ := hs.again distinct ht
        exact ⟨hinv, by omega⟩)
      (fun s r hs ht => hs.leave distinct h ht) initial_inv
  exact ⟨rates, hr, hiff⟩

/-- The download is exact, both ends of the range included, on exactly those histories and
ranges whose last record is not skipped. -/
theorem getFundingRates_exact_iff (h : startTime ≤ endTime) :
    (∃ rates, Returns (getFundingRatesTurn (fun _ => earliestPage S) endTime) (initial startTime)
        (.ok rates) ∧ ExactRange S startTime endTime rates) ↔
      ¬ EndRecordSkipped S startTime endTime := by
  obtain ⟨rates, hr, hiff⟩ := getFundingRates_returns distinct h
  rw [← hiff]
  constructor
  · rintro ⟨rates', hr', hasc, hmem⟩
    obtain rfl : rates = rates' := Except.ok.inj (hr.unique hr')
    exact eq_inRange distinct hasc hmem
  · intro he
    refine ⟨rates, hr, ?_, fun r => ?_⟩
    · exact he ▸ inRange_ascending distinct _ _
    · exact he ▸ mem_inRange S

end Run

def twoHours : List FundingRate := [⟨"BTC", 1/80000, 0, 0⟩, ⟨"BTC", 1/80000, 0, 3600000⟩]

theorem getFundingRates_exact_two_hours :
    ∃ rates, Returns (getFundingRatesTurn (fun _ => earliestPage twoHours) 3600000) (initial 0)
      (.ok rates) ∧ ExactRange twoHours 0 3600000 rates := by
  refine (getFundingRates_exact_iff (by decide) (by omega)).mpr ?_
  rintro ⟨_, h | ⟨_, h, _⟩⟩
  · exact absurd h (by decide)
  · exact absurd h (by decide)

/-- A range of a single millisecond is never asked for, although it holds a record. -/
theorem getFundingRates_misses_single_ms :
    (twoHours.map FundingRate.time).Nodup ∧ (3600000 : ℤ) ≤ 3600000 ∧
      ¬ ∃ rates, Returns (getFundingRatesTurn (fun _ => earliestPage twoHours) 3600000)
        (initial 3600000) (.ok rates) ∧ ExactRange twoHours 3600000 3600000 rates := by
  refine ⟨by decide, le_rfl, ?_⟩
  rintro ⟨rates, hr, _, hmem⟩
  have hempty : Returns (getFundingRatesTurn (fun _ => earliestPage twoHours) 3600000)
      (initial 3600000) (.ok []) := Returns.leave (by rfl)
  obtain rfl : [] = rates := Except.ok.inj (hempty.unique hr)
  have := (hmem ⟨"BTC", 1/80000, 0, 3600000⟩).mpr (by decide +kernel)
  simp at this

end HyperliquidApi.FundingRates
