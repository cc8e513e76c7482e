import HyperliquidApi.OrderEvents
import HyperliquidApi.PriceGrid

/-!
# The instrument tables

A reply to `metaAndAssetCtxs` pairs the coins of the universe with their contexts by position, and
the position is the asset id of orders. `loadUniverse` copies the coins that can be traded into
four tables. The two readers of JSON fields come from a library and are parameters; positions
stay far below the range of `int`.
-/
namespace HyperliquidApi
open Runs

/-- `readValue` for a type and `readStringAsDouble`; the last argument is the value so far. -/
structure JsonReaders where
  readValue : ∀ {α : Type}, (Json → Option α) → Json → String → α → Except JsonError α
  readStringAsDouble : Json → String → ℚ → Except JsonError ℚ

structure AssetContext where
  assetIndex : ℤ
  coin : String
  szDecimals : ℤ
  isDelisted : Bool
  funding : ℚ
  markPx : ℚ
  midPx : ℚ
  oraclePx : ℚ
  dayNtlVlm : ℚ
  deriving DecidableEq

inductive RestError
  | http (what : String)
  | runtime (what : String)
  | json (error : JsonError)
  deriving DecidableEq

structure InstrumentSpec where
  symbol : String
  tickSize : ℚ
  qtyStep : ℚ
  minQty : ℚ
  maxQty : ℚ
  minNotional : ℚ
  deriving DecidableEq

structure InstrumentTables where
  assetIndex : String → Option ℤ
  szDecimals : String → Option ℤ
  lastMid : String → Option ℚ
  specCache : String → Option InstrumentSpec

namespace AssetContext

def empty : AssetContext := ⟨-1, "", 0, false, 0, 0, 0, 0, 0⟩

/-- Fields that the object does not have keep their values. -/
def fromJson (r : JsonReaders) (ctx : AssetContext) (json : Json) : Except JsonError AssetContext := do
  let coin ← r.readValue Json.asString json "name" ctx.coin
  let szDecimals ← r.readValue Json.asInt json "szDecimals" ctx.szDecimals
  let isDelisted ← r.readValue Json.asBool json "isDelisted" ctx.isDelisted
  let funding ← r.readStringAsDouble json "funding" ctx.funding
  let markPx ← r.readStringAsDouble json "markPx" ctx.markPx
  let midPx ← r.readStringAsDouble json "midPx" ctx.midPx
  let oraclePx ← r.readStringAsDouble json "oraclePx" ctx.oraclePx
  let dayNtlVlm ← r.readStringAsDouble json "dayNtlVlm" ctx.dayNtlVlm
  return { ctx with coin, szDecimals, isDelisted, funding, markPx, midPx, oraclePx, dayNtlVlm }

/-- Has a name and is not delisted. -/
def Tradeable (ctx : AssetContext) : Prop := ¬ (ctx.coin = "" ∨ ctx.isDelisted = true)

instance : DecidablePred Tradeable := fun ctx => inferInstanceAs (Decidable (¬ (ctx.coin = "" ∨ ctx.isDelisted = true)))

def refPx (ctx : AssetContext) : ℚ := if 0 < ctx.midPx then ctx.midPx else ctx.markPx

/-- What a coin's order must observe; `minNotional` is the venue's minimum in dollars. -/
def spec (ctx : AssetContext) : InstrumentSpec where
  symbol := ctx.coin
  tickSize :=
    if 0 < ctx.refPx then pow10i (-allowedDecimals ctx.refPx ctx.szDecimals)
    else pow10i (-(6 - ctx.szDecimals))
  qtyStep := pow10i (-ctx.szDecimals)
  minQty := pow10i (-ctx.szDecimals)
  maxQty := 0
  minNotional := 10

end AssetContext

section
variable (r : JsonReaders)

/-- One turn of the loop: the universe's object first, then the context at the same position. -/
def contextAt («universe» ctxs : Json) (i : ℕ) : Except JsonError AssetContext := do
  let listed ← AssetContext.empty.fromJson r (← «universe».at' i)
  let ctx ← if i < ctxs.size then listed.fromJson r (← ctxs.at' i) else pure listed
  return { ctx with assetIndex := i }

/-- `n` turns of the loop from position `i` on. -/
def contextsFrom («universe» ctxs : Json) : ℕ → ℕ → Except JsonError (List AssetContext)
  | 0, _ => return []
  | n+1, i => do
    let ctx ← contextAt r «universe» ctxs i
    return ctx :: (← contextsFrom «universe» ctxs n (i + 1))

def contextsOf (json : Json) : Except JsonError (List AssetContext) := do
  let «universe» ← (← json.at' 0).atKey "universe"
  let ctxs ← json.at' 1
  contextsFrom r «universe» ctxs «universe».size 0

/-- The reply is an error where the request, its status or the text of its body is one. -/
def getAssetContexts (reply : Except RestError Json) : Except RestError (List AssetContext) := do
  let json ← reply
  if ¬ json.isArray ∨ json.size < 2 then
    throw (.runtime "Hyperliquid metaAndAssetCtxs: unexpected response shape")
  (contextsOf r json).mapError .json

end

namespace InstrumentTables

def empty : InstrumentTables := ⟨fun _ => none, fun _ => none, fun _ => none, fun _ => none⟩

/-- The body of `loadUniverse`'s loop. -/
def insert (t : InstrumentTables) (ctx : AssetContext) : InstrumentTables :=
  if ctx.coin = "" ∨ ctx.isDelisted = true then t
  else
    { assetIndex := Function.update t.assetIndex ctx.coin (some ctx.assetIndex)
      szDecimals := Function.update t.szDecimals ctx.coin (some ctx.szDecimals)
      lastMid := Function.update t.lastMid ctx.coin (some ctx.refPx)
      specCache := Function.update t.specCache ctx.coin (some ctx.spec) }

def load (t : InstrumentTables) (contexts : List AssetContext) : InstrumentTables :=
  contexts.foldl insert t

/-- The reply is read before the tables are locked. -/
def loadUniverse (r : JsonReaders) (t : InstrumentTables) (reply : Except RestError Json) :
    Except RestError InstrumentTables := do
  let contexts ← getAssetContexts r reply
  return t.load contexts

def assetFor (t : InstrumentTables) (symbol : String) : ℤ := (t.assetIndex symbol).getD (-1)

def szDecimalsFor (t : InstrumentTables) (symbol : String) : ℤ := (t.szDecimals symbol).getD 0

/-- `szDecimals[symbol]`, which inserts a zero under an unknown key. -/
def szDecimalsAt (t : InstrumentTables) (symbol : String) : ℤ × InstrumentTables :=
  match t.szDecimals symbol with
  | some d => (d, t)
  | none => (0, { t with szDecimals := Function.update t.szDecimals symbol (some 0) })

/-- `lastMid[symbol]`, which does the same. -/
def lastMidAt (t : InstrumentTables) (symbol : String) : ℚ × InstrumentTables :=
  match t.lastMid symbol with
  | some px => (px, t)
  | none => (0, { t with lastMid := Function.update t.lastMid symbol (some 0) })

/-- The first half of `instrumentSpec`: the cached spec, with the tick at the live bid. -/
def findSpec (t : InstrumentTables) (quoteCache : String → Option Quote) (symbol : String) :
    Option InstrumentSpec × InstrumentTables :=
  match t.specCache symbol with
  | none => (none, t)
  | some spec =>
    match quoteCache symbol with
    | some q =>
      if 0 < q.bid then
        let (sd, t') := t.szDecimalsAt symbol
        (some { spec with tickSize := pow10i (-allowedDecimals q.bid sd) }, t')
      else (some spec, t)
    | none => (some spec, t)

/-- A miss loads the universe once more. -/
def instrumentSpec (r : JsonReaders) (t : InstrumentTables) (quoteCache : String → Option Quote)
    (symbol : String) (reply : Except RestError Json) :
    Except RestError InstrumentSpec × InstrumentTables :=
  match t.findSpec quoteCache symbol with
  | (some spec, t') => (.ok spec, t')
  | (none, t') =>
    match t'.loadUniverse r reply with
    | .error e => (.error e, t')
    | .ok loaded =>
      match loaded.specCache symbol with
      | some spec => (.ok spec, loaded)
      | none => (.error (.runtime s!"Hyperliquid: unknown instrument {symbol}"), loaded)

end InstrumentTables

end HyperliquidApi
