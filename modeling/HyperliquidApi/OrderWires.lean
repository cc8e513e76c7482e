import HyperliquidApi.Instruments
import HyperliquidApi.RejectReasons
import HyperliquidApi.Signer

/-!
# What a submit sends

The part of a submit before its id is generated: the checks, the price and the size on their grids
and the wire strings. `formatDouble` is the formatting library's text of a double.
-/
namespace HyperliquidApi
open Rounding DecimalText

inductive OrderSide
  | buy
  | sell
  deriving DecidableEq

/-- The arguments of `placeLimit` up to the client id, and the size that `makeCloid` keeps. -/
structure LimitOrder where
  asset : ℤ
  isBuy : Bool
  pxWire : String
  szWire : String
  reduceOnly : Bool
  tif : Signer.Tif
  origSz : ℚ
  deriving DecidableEq

section
variable (formatDouble : ℚ → String)

/-- The last part of both submits. -/
def limitOrder (asset sd : ℤ) (side : OrderSide) (qty rawPx : ℚ) (reduceOnly : Bool)
    (tif : Signer.Tif) : Except GatewayError LimitOrder :=
  let px := normalizePrice rawPx sd
  let sz := normalizeSize qty sd
  if sz ≤ 0 then
    .error ⟨.minNotional,
      s!"Hyperliquid: qty {formatDouble qty} rounds to 0 (szDecimals {sd})"⟩
  else
    .ok
      { asset
        isBuy := side = .buy
        pxWire := floatToWire px
        szWire := floatToWire sz
        reduceOnly
        tif
        origSz := sz }

def unknownInstrument (symbol : String) : GatewayError :=
  ⟨.permanent, s!"Hyperliquid: unknown instrument {symbol}"⟩

/-- `submitPostOnlyLimit` up to `makeCloid`. -/
def postOnlyLimit (t : InstrumentTables) (symbol : String) (side : OrderSide) (qty price : ℚ)
    (reduceOnly : Bool) : Except GatewayError LimitOrder :=
  let asset := t.assetFor symbol
  if asset < 0 then .error (unknownInstrument symbol)
  else limitOrder formatDouble asset (t.szDecimalsFor symbol) side qty price reduceOnly .Alo

/-- The quote on the side of the order, zero without one. -/
def quotedPrice (quoteCache : String → Option Quote) (symbol : String) (side : OrderSide) : ℚ :=
  match quoteCache symbol with
  | some q => if side = .buy then q.ask else q.bid
  | none => 0

/-- The quote, or else the mid or mark price of the last load. -/
def referencePrice (t : InstrumentTables) (quoteCache : String → Option Quote) (symbol : String)
    (side : OrderSide) : ℚ × InstrumentTables :=
  let ref := quotedPrice quoteCache symbol side
  if ref ≤ 0 then t.lastMidAt symbol else (ref, t)

/-- Five percent of slippage. -/
def marketPrice (side : OrderSide) (ref : ℚ) : ℚ :=
  if side = .buy then ref * (1 + 5/100) else ref * (1 - 5/100)

/-- `submitReduceOnlyMarket` up to `makeCloid`, with the tables after its lookups. -/
def reduceOnlyMarket (t : InstrumentTables) (quoteCache : String → Option Quote) (symbol : String)
    (side : OrderSide) (qty : ℚ) : Except GatewayError LimitOrder × InstrumentTables :=
  let asset := t.assetFor symbol
  if asset < 0 then (.error (unknownInstrument symbol), t)
  else
    let (ref, t') := referencePrice t quoteCache symbol side
    if ref ≤ 0 then
      (.error ⟨.hard, s!"Hyperliquid: no reference price for {symbol} market close"⟩, t')
    else
      (limitOrder formatDouble asset (t'.szDecimalsFor symbol) side qty (marketPrice side ref) true
        .Ioc, t')

end

/-- An invocation of one of the two submits. -/
inductive Submission
  | postOnlyLimit (symbol : String) (side : OrderSide) (qty price : ℚ) (reduceOnly : Bool)
  | reduceOnlyMarket (symbol : String) (side : OrderSide) (qty : ℚ)

namespace Submission

def symbol : Submission → String
  | .postOnlyLimit symbol _ _ _ _ => symbol
  | .reduceOnlyMarket symbol _ _ => symbol

def qty : Submission → ℚ
  | .postOnlyLimit _ _ qty _ _ => qty
  | .reduceOnlyMarket _ _ qty => qty

/-- The price before it is put on the grid. -/
def rawPrice (t : InstrumentTables) (quoteCache : String → Option Quote) : Submission → ℚ
  | .postOnlyLimit _ _ _ price _ => price
  | .reduceOnlyMarket symbol side _ => marketPrice side (referencePrice t quoteCache symbol side).1

/-- The order that is sent, or the error that the caller sees instead. -/
def order (formatDouble : ℚ → String) (t : InstrumentTables) (quoteCache : String → Option Quote) :
    Submission → Except GatewayError LimitOrder
  | .postOnlyLimit symbol side qty price reduceOnly =>
    HyperliquidApi.postOnlyLimit formatDouble t symbol side qty price reduceOnly
  | .reduceOnlyMarket symbol side qty =>
    (HyperliquidApi.reduceOnlyMarket formatDouble t quoteCache symbol side qty).1

end Submission

/-- The wire strings denote a price on the grid and a size on its own, near the quantity. -/
def ValidOrder (sd : ℕ) (qty : ℚ) (order : LimitOrder) : Prop :=
  ∃ p s : ℚ, decimalValue order.pxWire.toList = some p ∧
    decimalValue order.szWire.toList = some s ∧
    0 < p ∧ OnGrid sd p ∧ 0 < s ∧ HasDecimals sd s ∧ |s - qty| ≤ 1/2 / 10^sd

section
variable (formatDouble : ℚ → String)

/-- With the values that the wire strings denote. -/
lemma validOrder_iff {sd : ℕ} {qty p s : ℚ} {order : LimitOrder}
    (hp : decimalValue order.pxWire.toList = some p)
    (hs : decimalValue order.szWire.toList = some s) :
    ValidOrder sd qty order ↔
      0 < p ∧ OnGrid sd p ∧ 0 < s ∧ HasDecimals sd s ∧ |s - qty| ≤ 1/2 / 10^sd := by
  constructor
  · rintro ⟨p', s', hp', hs', hvalid⟩
    obtain rfl := Option.some.inj (hp.symm.trans hp')
    obtain rfl := Option.some.inj (hs.symm.trans hs')
    exact hvalid
  · exact fun hvalid => ⟨p, s, hp, hs, hvalid⟩

/-- An order that is sent carries the rounded price and size, the size not rounded away. -/
lemma limitOrder_ok {asset sd : ℤ} {side : OrderSide} {qty rawPx : ℚ} {reduceOnly : Bool}
    {tif : Signer.Tif} {order : LimitOrder}
    (h : limitOrder formatDouble asset sd side qty rawPx reduceOnly tif = .ok order) :
    0 < normalizeSize qty sd ∧ order.pxWire = floatToWire (normalizePrice rawPx sd) ∧
      order.szWire = floatToWire (normalizeSize qty sd) := by
  unfold limitOrder at h
  dsimp only at h
  split at h
  · cases h
  · rename_i hsz
    obtain rfl := Except.ok.inj h
    simp only [and_self, and_true]
    exact not_le.mp hsz

/-- An order that is sent is valid unless its price has become zero. -/
lemma limitOrder_valid_iff {asset : ℤ} {sd : ℕ} (hsd : sd ≤ 6) {side : OrderSide} {qty rawPx : ℚ}
    (hpx : 0 < rawPx) {reduceOnly : Bool} {tif : Signer.Tif} {order : LimitOrder}
    (h : limitOrder formatDouble asset sd side qty rawPx reduceOnly tif = .ok order) :
    ValidOrder sd qty order ↔ 1/2 ≤ rawPx * 10^(6 - sd) := by
  have hgrid := normalizePrice_onGrid hpx hsd
  have hpxWire := floatToWire_value (hgrid.1.mono (by omega : 6 - sd ≤ 8))
  have hszWire := floatToWire_value ((hasDecimals_roundTo sd qty).mono (by omega : sd ≤ 8))
  obtain ⟨hsz, hpxSent, hszSent⟩ := limitOrder_ok formatDouble h
  rw [normalizeSize_eq] at hsz hszSent
  rw [← hpxSent] at hpxWire
  rw [← hszSent] at hszWire
  rw [validOrder_iff hpxWire hszWire, ← normalizePrice_pos_iff hpx hsd]
  constructor
  · exact fun hvalid => hvalid.1
  · exact fun hpos => ⟨hpos, hgrid, hsz, hasDecimals_roundTo sd qty, abs_roundTo_sub sd qty⟩

lemma szDecimalsFor_referencePrice (t : InstrumentTables) (quoteCache : String → Option Quote)
    (symbol symbol' : String) (side : OrderSide) :
    (referencePrice t quoteCache symbol side).2.szDecimalsFor symbol' = t.szDecimalsFor symbol' := by
  have hlookup : (t.lastMidAt symbol).2.szDecimalsFor symbol' = t.szDecimalsFor symbol' := by
    unfold InstrumentTables.lastMidAt
    split <;> rfl
  unfold referencePrice
  dsimp only
  split_ifs
  · exact hlookup
  · rfl

/-- Both submits send what the last part makes of their raw price. -/
lemma limitOrder_of_order {sub : Submission} {t : InstrumentTables}
    {quoteCache : String → Option Quote} {order : LimitOrder}
    (h : sub.order formatDouble t quoteCache = .ok order) :
    ∃ asset side reduceOnly tif, limitOrder formatDouble asset (t.szDecimalsFor sub.symbol) side
      sub.qty (sub.rawPrice t quoteCache) reduceOnly tif = .ok order := by
  cases sub with
  | postOnlyLimit symbol side qty price reduceOnly =>
    simp only [Submission.order, postOnlyLimit] at h
    split at h
    · cases h
    · exact ⟨_, _, _, _, h⟩
  | reduceOnlyMarket symbol side qty =>
    simp only [Submission.order, reduceOnlyMarket] at h
    split at h
    · cases h
    · split at h
      · cases h
      · rw [szDecimalsFor_referencePrice] at h
        exact ⟨_, _, _, _, h⟩

/-- The orders sent are valid exactly when the raw price is at least half of the finest tick. -/
theorem orders_valid_iff {sub : Submission} {t : InstrumentTables}
    {quoteCache : String → Option Quote} {sd : ℕ} (hregistered : t.szDecimals sub.symbol = some (sd : ℤ))
    (hsd : sd ≤ 6) (hprice : 0 < sub.rawPrice t quoteCache) {order : LimitOrder}
    (h : sub.order formatDouble t quoteCache = .ok order) :
    ValidOrder sd sub.qty order ↔ 1/2 ≤ sub.rawPrice t quoteCache * 10^(6 - sd) := by
  obtain ⟨asset, side, reduceOnly, tif, hsent⟩ := limitOrder_of_order formatDouble h
  have hdecimals : t.szDecimalsFor sub.symbol = sd := by
    rw [InstrumentTables.szDecimalsFor, hregistered, Option.getD_some]
  rw [hdecimals] at hsent
  exact limitOrder_valid_iff formatDouble hsd hprice hsent

end

/-! One coin with whole sizes, bid at 100. -/

def coinTables : InstrumentTables :=
  InstrumentTables.empty.load [{ AssetContext.empty with assetIndex := 0, coin := "DOGE" }]

def coinQuotes : String → Option Quote := fun _ => some ⟨100, 101⟩

/-- Three coins are three units of the size. -/
lemma three_units : ¬ normalizeSize 3 0 ≤ 0 := by
  have hsize := normalizeSize_eq 3 0
  have hpos : 0 < roundTo 0 3 := (roundTo_pos_iff (by norm_num)).mpr (by norm_num)
  rw [Nat.cast_zero] at hsize
  rw [hsize, not_le]
  exact hpos

theorem orders_valid_iff_at_bid : ∃ order,
    Submission.order (fun _ => "") coinTables coinQuotes (.reduceOnlyMarket "DOGE" .sell 3) =
      .ok order ∧
    (ValidOrder 0 3 order ↔ 1/2 ≤ Submission.rawPrice coinTables coinQuotes
      (.reduceOnlyMarket "DOGE" .sell 3) * 10^(6 - 0)) := by
  have hasset : coinTables.assetFor "DOGE" = 0 := rfl
  have hdecimals : coinTables.szDecimalsFor "DOGE" = 0 := rfl
  have hside : ¬ OrderSide.sell = .buy := by decide
  have hbid : quotedPrice coinQuotes "DOGE" .sell = 100 := by simp [quotedPrice, coinQuotes]
  have hquote : referencePrice coinTables coinQuotes "DOGE" .sell = (100, coinTables) := by
    norm_num [referencePrice, hbid]
  obtain ⟨order, horder⟩ : ∃ order, Submission.order (fun _ => "") coinTables coinQuotes
      (.reduceOnlyMarket "DOGE" .sell 3) = .ok order := by
    norm_num [Submission.order, reduceOnlyMarket, hasset, hdecimals, hquote, limitOrder,
      three_units]
  have hprice : 0 < Submission.rawPrice coinTables coinQuotes (.reduceOnlyMarket "DOGE" .sell 3) := by
    norm_num [Submission.rawPrice, marketPrice, hside, hquote]
  exact ⟨order, horder, orders_valid_iff (fun _ => "") rfl (by decide) hprice horder⟩

/-- A price below half of the finest tick is sent as zero. -/
theorem tiny_price_sent_as_zero : ∃ order,
    Submission.order (fun _ => "") coinTables coinQuotes
      (.postOnlyLimit "DOGE" .buy 3 (1/10^7) false) = .ok order ∧
    ¬ ValidOrder 0 3 order := by
  have hasset : coinTables.assetFor "DOGE" = 0 := rfl
  have hdecimals : coinTables.szDecimalsFor "DOGE" = 0 := rfl
  obtain ⟨order, horder⟩ : ∃ order, limitOrder (fun _ => "") 0 ((0 : ℕ) : ℤ) .buy 3 (1/10^7) false
      .Alo = .ok order := by
    simp [limitOrder, three_units]
  refine ⟨order, ?_, ?_⟩
  · simpa [Submission.order, postOnlyLimit, hasset, hdecimals] using horder
  · rw [limitOrder_valid_iff (fun _ => "") (by norm_num) (by norm_num) horder]
    norm_num

end HyperliquidApi
