import Mathlib

/-!
# Data models

The records the REST client hands out and the candle intervals. Doubles are exact
rationals, 64-bit timestamps are integers: no result here comes near their bounds.
-/
namespace HyperliquidApi

inductive CandleInterval
  | _1m | _3m | _5m | _15m | _30m | _1h | _2h | _4h | _6h | _8h | _12h | _1d | _3d | _1w | _1M
  deriving DecidableEq, Repr

open CandleInterval in
def numberOfMsForCandleInterval : CandleInterval → ℤ
  | _1m => 60000
  | _3m => 60000*3
  | _5m => 60000*5
  | _15m => 60000*15
  | _30m => 60000*30
  | _1h => 60000*60
  | _2h => 60000*120
  | _4h => 60000*240
  | _6h => 60000*360
  | _8h => 60000*480
  | _12h => 60000*720
  | _1d => 86400000
  | _3d => 86400000*3
  | _1w => 86400000*7
  | _1M => 86400000*30

lemma numberOfMsForCandleInterval_pos (interval : CandleInterval) :
    0 < numberOfMsForCandleInterval interval := by cases interval <;> decide

structure Candle where
  startTime : ℤ
  closeTime : ℤ
  coin : String
  interval : String
  «open» : ℚ
  close : ℚ
  high : ℚ
  low : ℚ
  volume : ℚ
  numTrades : ℤ
  deriving DecidableEq, Repr

structure FundingRate where
  coin : String
  fundingRate : ℚ
  premium : ℚ
  time : ℤ
  deriving DecidableEq, Repr

end HyperliquidApi
