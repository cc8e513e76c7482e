import HyperliquidApi.OrderWires

/-!
# The price of a market close

`submitReduceOnlyMarket` goes five percent beyond its reference and then rounds to the nearest
price of the grid. From ten finest ticks on, the slippage is more than what rounding can undo;
below, it depends on where between two ticks the reference lies.
-/
namespace HyperliquidApi
open Rounding

/-- The limit price of `submitReduceOnlyMarket`. -/
def closePrice (t : InstrumentTables) (quoteCache : String → Option Quote) (symbol : String)
    (side : OrderSide) : ℚ :=
  let (ref, t') := referencePrice t quoteCache symbol side
  normalizePrice (marketPrice side ref) (t'.szDecimalsFor symbol)

/-- The order crosses the reference, at a price that there is. -/
def Aggressive (ref px : ℚ) : OrderSide → Prop
  | .buy => ref ≤ px
  | .sell => 0 < px ∧ px ≤ ref

/-- Five percent reach half of the way to the next tick beyond the reference, which is counted in
finest ticks, and a seller's price is not half a tick or less. -/
def SlippageKept (ticks : ℚ) : OrderSide → Prop
  | .buy => ⌈ticks⌉ - 1/2 ≤ ticks * (1 + 5/100)
  | .sell => 1/2 ≤ ticks * (1 - 5/100) ∧ ticks * (1 - 5/100) < ⌊ticks⌋ + 1/2

lemma closePrice_eq {t : InstrumentTables} {quoteCache : String → Option Quote} {symbol : String}
    {sd : ℕ} (hregistered : t.szDecimals symbol = some (sd : ℤ)) (side : OrderSide) :
    closePrice t quoteCache symbol side =
      normalizePrice (marketPrice side (referencePrice t quoteCache symbol side).1) sd := by
  unfold closePrice
  dsimp only
  rw [szDecimalsFor_referencePrice, InstrumentTables.szDecimalsFor, hregistered, Option.getD_some]

/-- The order that is sent has this price. -/
lemma reduceOnlyMarket_pxWire {formatDouble : ℚ → String} {t : InstrumentTables}
    {quoteCache : String → Option Quote} {symbol : String} {side : OrderSide} {qty : ℚ}
    {order : LimitOrder}
    (h : (reduceOnlyMarket formatDouble t quoteCache symbol side qty).1 = .ok order) :
    order.pxWire = floatToWire (closePrice t quoteCache symbol side) := by
  have hsub : (Submission.reduceOnlyMarket symbol side qty).order formatDouble t quoteCache =
    .ok order := h
  obtain ⟨asset, side', reduceOnly, tif, hsent⟩ := limitOrder_of_order formatDouble hsub
  obtain ⟨-, hpx, -⟩ := limitOrder_ok formatDouble hsent
  rw [hpx, closePrice]
  dsimp only
  rw [szDecimalsFor_referencePrice]
  rfl

lemma le_roundAway_iff {u y : ℚ} (hy : 0 ≤ y) : u ≤ roundAway y ↔ ⌈u⌉ - 1/2 ≤ y := by
  have hceil : u ≤ roundAway y ↔ ⌈u⌉ ≤ roundAway y := Int.ceil_le.symm
  rw [hceil, roundAway_of_nonneg hy, round_eq, Int.le_floor]
  constructor <;> intro h <;> linarith

lemma roundAway_le_iff {u y : ℚ} (hy : 0 ≤ y) : roundAway y ≤ u ↔ y < ⌊u⌋ + 1/2 := by
  have hfloor : (roundAway y : ℚ) ≤ u ↔ roundAway y < ⌊u⌋ + 1 := by
    rw [Int.lt_add_one_iff, Int.le_floor]
  rw [hfloor, roundAway_of_nonneg hy, round_eq, Int.floor_lt]
  push_cast
  constructor <;> intro h <;> linarith

/-- From ten ticks on the slippage is half a tick. -/
lemma slippageKept_of_ten {ticks : ℚ} (h : 10 ≤ ticks) (side : OrderSide) :
    SlippageKept ticks side := by
  cases side with
  | buy =>
    have hceil := Int.ceil_lt_add_one ticks
    show (⌈ticks⌉ : ℚ) - 1/2 ≤ ticks * (1 + 5/100)
    linarith
  | sell =>
    have hfloor := Int.lt_floor_add_one ticks
    constructor <;> linarith

/-- A price that is rounded at its fifth figure keeps nearly all of the slippage. -/
lemma aggressive_of_near {ref px : ℚ} (href : 0 < ref) {side : OrderSide}
    (h : |px - marketPrice side ref| ≤ marketPrice side ref / 20000) : Aggressive ref px side := by
  obtain ⟨hlow, hhigh⟩ := abs_le.mp h
  cases side with
  | buy =>
    have hmarket : marketPrice .buy ref = ref * (1 + 5/100) := rfl
    rw [hmarket] at hlow
    show ref ≤ px
    linarith
  | sell =>
    have hmarket : marketPrice .sell ref = ref * (1 - 5/100) := rfl
    rw [hmarket] at hlow hhigh
    constructor <;> linarith

lemma marketPrice_pos {ref : ℚ} (href : 0 < ref) (side : OrderSide) : 0 < marketPrice side ref := by
  cases side with
  | buy =>
    show 0 < ref * (1 + 5/100)
    linarith
  | sell =>
    show 0 < ref * (1 - 5/100)
    linarith

lemma marketPrice_mul (side : OrderSide) (ref c : ℚ) :
    marketPrice side ref * c = marketPrice side (ref * c) := by
  unfold marketPrice
  split_ifs <;> ring

lemma marketPrice_le {ref : ℚ} (href : 0 < ref) (side : OrderSide) :
    marketPrice side ref ≤ ref * (1 + 5/100) := by
  cases side with
  | buy => exact le_rfl
  | sell =>
    show ref * (1 - 5/100) ≤ ref * (1 + 5/100)
    linarith

/-- At the finest tick, prices and references are compared as numbers of ticks. -/
lemma aggressive_roundTo_iff {ref : ℚ} (href : 0 < ref) (d : ℕ) (side : OrderSide) :
    Aggressive ref (roundTo d (marketPrice side ref)) side ↔ SlippageKept (ref * 10^d) side := by
  have hpos := ten_pow_pos d
  have hmarket : 0 ≤ marketPrice side ref := (marketPrice_pos href side).le
  have hscaled : 0 ≤ marketPrice side ref * 10^d := mul_nonneg hmarket hpos.le
  have hticks := marketPrice_mul side ref (10^d)
  cases side with
  | buy =>
    show ref ≤ roundTo d (marketPrice .buy ref) ↔
      (⌈ref * 10^d⌉ : ℚ) - 1/2 ≤ marketPrice .buy (ref * 10^d)
    rw [roundTo, le_div_iff₀ hpos, le_roundAway_iff hscaled, hticks]
  | sell =>
    show 0 < roundTo d (marketPrice .sell ref) ∧ roundTo d (marketPrice .sell ref) ≤ ref ↔
      1/2 ≤ marketPrice .sell (ref * 10^d) ∧ marketPrice .sell (ref * 10^d) < ⌊ref * 10^d⌋ + 1/2
    rw [roundTo_pos_iff hmarket, roundTo, div_le_iff₀ hpos, roundAway_le_iff hscaled, hticks]

lemma aggressive_normalizePrice_iff {ref : ℚ} (href : 0 < ref) {sd : ℕ} (hsd : sd ≤ 6)
    (side : OrderSide) :
    Aggressive ref (normalizePrice (marketPrice side ref) sd) side ↔
      SlippageKept (ref * 10^(6 - sd)) side := by
  have hmarket := marketPrice_pos href side
  obtain ⟨d, hd, hle, hcases⟩ := allowedDecimals_cases hmarket hsd
  rw [normalizePrice_eq hd]
  by_cases hfinest : d = 6 - sd
  · rw [hfinest]
    exact aggressive_roundTo_iff href (6 - sd) side
  · have hpos := ten_pow_pos d
    have hlarge := ten_thousand_le hmarket (show 4 ≤ Int.log 10 (marketPrice side ref) + d by omega)
    have hnear := abs_roundTo_sub d (marketPrice side ref)
    have hhalf : 1/2 / 10^d ≤ marketPrice side ref / 20000 := by
      rw [div_le_div_iff₀ hpos (by norm_num)]
      linarith
    have hticks : 10 ≤ ref * 10^(6 - sd) := by
      have hmore : ref * 10^d ≤ ref * 10^(6 - sd) := by
        gcongr
        norm_num
      have hmarket' : marketPrice side ref * 10^d ≤ ref * (1 + 5/100) * 10^d := by
        gcongr
        exact marketPrice_le href side
      linarith
    exact iff_of_true (aggressive_of_near href (hnear.trans hhalf)) (slippageKept_of_ten hticks side)

/-- The price of a market close is aggressive exactly when the slippage outweighs the rounding. -/
theorem closePrice_aggressive_iff {t : InstrumentTables} {quoteCache : String → Option Quote}
    {symbol : String} {side : OrderSide} {sd : ℕ}
    (hregistered : t.szDecimals symbol = some (sd : ℤ)) (hsd : sd ≤ 6)
    (href : 0 < (referencePrice t quoteCache symbol side).1) :
    Aggressive (referencePrice t quoteCache symbol side).1 (closePrice t quoteCache symbol side)
        side ↔
      SlippageKept ((referencePrice t quoteCache symbol side).1 * 10^(6 - sd)) side := by
  rw [closePrice_eq hregistered]
  exact aggressive_normalizePrice_iff href hsd side

/-- A buyer who is offered at 101. -/
theorem closePrice_aggressive_at_ask :
    Aggressive 101 (closePrice coinTables coinQuotes "DOGE" .buy) .buy ↔
      SlippageKept (101 * 10^(6 - 0)) .buy := by
  have hquote : (referencePrice coinTables coinQuotes "DOGE" .buy).1 = 101 := by
    norm_num [referencePrice, quotedPrice, coinQuotes]
  have hpos : 0 < (referencePrice coinTables coinQuotes "DOGE" .buy).1 := by
    rw [hquote]
    norm_num
  have hregistered : coinTables.szDecimals "DOGE" = some ((0 : ℕ) : ℤ) := rfl
  have hiff := closePrice_aggressive_iff hregistered (by decide) hpos
  rw [hquote] at hiff
  exact hiff

/-- Without a quote, at a mark price between two prices of the grid. -/
def markedTables : InstrumentTables :=
  InstrumentTables.empty.load
    [{ AssetContext.empty with assetIndex := 0, coin := "DOGE", markPx := 14/10^7 }]

/-- Marked at 1.4 finest ticks, a buyer of the coin bids one tick. -/
theorem closePrice_below_mark :
    ¬ Aggressive (14/10^7) (closePrice markedTables (fun _ => none) "DOGE" .buy) .buy := by
  have hmark : (referencePrice markedTables (fun _ => none) "DOGE" .buy).1 = 14/10^7 := by
    have hentry : markedTables.lastMid "DOGE" = some (14/10^7) := by decide +kernel
    simp [referencePrice, quotedPrice, InstrumentTables.lastMidAt, hentry]
  have hregistered : markedTables.szDecimals "DOGE" = some ((0 : ℕ) : ℤ) := rfl
  rw [closePrice_eq hregistered, hmark, aggressive_normalizePrice_iff (by norm_num) (by decide)]
  show ¬ ((⌈(14/10^7 : ℚ) * 10^(6 - 0)⌉ : ℚ) - 1/2 ≤ (14/10^7 : ℚ) * 10^(6 - 0) * (1 + 5/100))
  have hticks : (14/10^7 : ℚ) * 10^(6 - 0) = 7/5 := by norm_num
  have hceil : ⌈(7/5 : ℚ)⌉ = 2 := by
    rw [Int.ceil_eq_iff]
    norm_num
  rw [hticks, hceil]
  norm_num

end HyperliquidApi
