import HyperliquidApi.LatestUniverse
import HyperliquidApi.OrderWires
import HyperliquidApi.PriceProjection

/-!
# The advertised tick

`instrumentSpec` takes the tick from the magnitude of a reference price, and a submit rounds its
price at the magnitude of that price. Lower prices have no fewer decimals, so the multiples of the
tick below the next power of ten are sent as they are.
-/
namespace HyperliquidApi.AdvertisedTick
open Runs Rounding NearestPoints DecimalText LatestUniverse

/-- Every row is that of some context. -/
def FromContexts (t : InstrumentTables) : Prop :=
  ∀ coin, row t coin = .absent ∨ ∃ ctx, row t coin = contextRow ctx

/-- The price that the tick is for: the live bid, or the price of the last load, from which a call
that had to load the universe takes its spec as well. -/
def tickReference (t t' : InstrumentTables) (quoteCache : String → Option Quote)
    (symbol : String) : ℚ :=
  match t.specCache symbol, quoteCache symbol with
  | some _, some q => if 0 < q.bid then q.bid else (t'.lastMid symbol).getD 0
  | _, _ => (t'.lastMid symbol).getD 0

lemma pow10i_neg (d : ℕ) : pow10i (-d) = 1 / 10^d := by
  cases d with
  | zero => simpa using pow10i_natCast 0
  | succ d =>
    have hneg : -((d + 1 : ℕ) : ℤ) < 0 := by omega
    rw [pow10i, if_pos hneg, timesTen_eq, Int.natAbs_neg, Int.natAbs_natCast]

lemma allowedDecimals_antitone {ref p : ℚ} (href : 0 < ref) (hp : 0 < p)
    (hlog : Int.log 10 p ≤ Int.log 10 ref) (sd : ℤ) :
    allowedDecimals ref sd ≤ allowedDecimals p sd := by
  unfold allowedDecimals sigFigDecimals
  rw [if_pos href, if_pos hp]
  omega

/-- A price with no more decimals than it may have is left alone. -/
lemma normalizePrice_of_hasDecimals {px : ℚ} {sd d : ℕ} (hd : allowedDecimals px sd = d)
    (h : HasDecimals d px) : normalizePrice px sd = px := by
  rw [normalizePrice_eq hd]
  exact (isNearest_roundTo d px).eq_of_mem h

theorem normalizePrice_tick_multiple {ref p : ℚ} {sd n : ℕ} (hsd : sd ≤ 6) (href : 0 < ref)
    (hn : 0 < n) (hp : p = n * pow10i (-allowedDecimals ref sd))
    (hlt : p < (10 : ℚ)^(Int.log 10 ref + 1)) : HasDecimals 8 p ∧ normalizePrice p sd = p := by
  obtain ⟨d, hd, hle, _⟩ := allowedDecimals_cases href hsd
  rw [hd, pow10i_neg] at hp
  have hpos : 0 < p := by
    rw [hp]
    positivity
  have hdecimals : HasDecimals d p := ⟨n, by rw [hp]; push_cast; ring⟩
  have hlog : Int.log 10 p ≤ Int.log 10 ref := by
    have hbelow := (Int.lt_zpow_iff_log_lt (b := 10) (by norm_num) hpos).mp (by exact_mod_cast hlt)
    omega
  have hanti := allowedDecimals_antitone href hpos hlog sd
  obtain ⟨d', hd', _⟩ := allowedDecimals_cases hpos hsd
  rw [hd, hd'] at hanti
  refine ⟨hdecimals.mono (by omega), ?_⟩
  exact normalizePrice_of_hasDecimals hd' (hdecimals.mono (by omega))

lemma FromContexts.uniform {t : InstrumentTables} (h : FromContexts t) : Uniform t := by
  intro coin
  rcases h coin with habsent | ⟨ctx, hctx⟩
  · exact .inl habsent
  · rw [hctx]
    exact .inr (by simp [Row.Complete, contextRow])

lemma FromContexts.load {t : InstrumentTables} (h : FromContexts t) (contexts : List AssetContext) :
    FromContexts (t.load contexts) := by
  intro coin
  rw [row_load]
  cases latest contexts coin with
  | none => exact h coin
  | some ctx => exact .inr ⟨ctx, rfl⟩

section
variable (r : JsonReaders)

lemma fromContexts_of_run {ok : Instruments → Action → Prop} {as : List Action} {s : Instruments}
    (h : Run (step r) ok initial as s) : FromContexts s.tables := by
  apply Run.invariant (P := fun s => FromContexts s.tables) _ _ h
  · exact fun coin => .inl rfl
  · intro s a s' hs _ hstep
    rcases tables_of_step r hs.uniform hstep with hsame | ⟨contexts, hload⟩
    · rw [hsame]
      exact hs
    · rw [hload]
      exact hs.load contexts

end

/-- A cached spec is the spec of the context that the other tables are from. -/
lemma FromContexts.spec {t : InstrumentTables} (h : FromContexts t) {symbol : String}
    {spec : InstrumentSpec} (hspec : t.specCache symbol = some spec) :
    ∃ ctx : AssetContext, t.szDecimals symbol = some ctx.szDecimals ∧
      t.lastMid symbol = some ctx.refPx ∧ spec = ctx.spec := by
  rcases h symbol with habsent | ⟨ctx, hctx⟩
  · have hnone : t.specCache symbol = none := congrArg Row.spec habsent
    rw [hnone] at hspec
    cases hspec
  · have hsome : t.specCache symbol = some ctx.spec := congrArg Row.spec hctx
    rw [hsome] at hspec
    exact ⟨ctx, congrArg Row.szDecimals hctx, congrArg Row.lastMid hctx, (Option.some.inj hspec).symm⟩

lemma FromContexts.tickSize {t : InstrumentTables} (h : FromContexts t) {symbol : String}
    {spec : InstrumentSpec} (hspec : t.specCache symbol = some spec) {sd : ℤ}
    (hsd : t.szDecimals symbol = some sd) (href : 0 < (t.lastMid symbol).getD 0) :
    spec.tickSize = pow10i (-allowedDecimals ((t.lastMid symbol).getD 0) sd) := by
  obtain ⟨ctx, hdecimals, hmid, rfl⟩ := h.spec hspec
  rw [hdecimals] at hsd
  obtain rfl := Option.some.inj hsd
  rw [hmid, Option.getD_some] at href ⊢
  exact if_pos href

lemma loadUniverse_fromContexts {r : JsonReaders} {t loaded : InstrumentTables}
    {reply : Except RestError Json} (h : FromContexts t)
    (hload : t.loadUniverse r reply = .ok loaded) : FromContexts loaded := by
  obtain ⟨contexts, _, hload⟩ := bind_ok hload
  obtain rfl := Except.ok.inj hload
  exact h.load contexts

section
variable {r : JsonReaders} {t t' : InstrumentTables} {quoteCache : String → Option Quote}
  {symbol : String} {reply : Except RestError Json} {spec : InstrumentSpec}

lemma instrumentSpec_of_hit {found : InstrumentSpec}
    (hfind : t.findSpec quoteCache symbol = (some found, t))
    (h : t.instrumentSpec r quoteCache symbol reply = (.ok spec, t')) : spec = found ∧ t' = t := by
  have hok : t.instrumentSpec r quoteCache symbol reply = (.ok found, t) := by
    simp [InstrumentTables.instrumentSpec, hfind]
  obtain ⟨hspec, ht⟩ := Prod.mk.inj (h.symm.trans hok)
  exact ⟨Except.ok.inj hspec, ht⟩

lemma instrumentSpec_of_miss (hcached : t.specCache symbol = none)
    (h : t.instrumentSpec r quoteCache symbol reply = (.ok spec, t')) :
    t.loadUniverse r reply = .ok t' ∧ t'.specCache symbol = some spec := by
  have hmiss : t.findSpec quoteCache symbol = (none, t) := by
    simp [InstrumentTables.findSpec, hcached]
  simp only [InstrumentTables.instrumentSpec, hmiss] at h
  split at h
  · cases h
  · rename_i loaded hload
    split at h
    · rename_i found hfound
      obtain ⟨hok, rfl⟩ := Prod.mk.inj h
      obtain rfl := Except.ok.inj hok
      exact ⟨hload, hfound⟩
    · cases h

/-- What `instrumentSpec` returns has the tick at the magnitude of its reference. -/
lemma instrumentSpec_tickSize (h : FromContexts t)
    (hspec : t.instrumentSpec r quoteCache symbol reply = (.ok spec, t')) {sd : ℤ}
    (hsd : t'.szDecimals symbol = some sd) (href : 0 < tickReference t t' quoteCache symbol) :
    spec.tickSize = pow10i (-allowedDecimals (tickReference t t' quoteCache symbol) sd) := by
  cases hcached : t.specCache symbol with
  | none =>
    obtain ⟨hload, hfound⟩ := instrumentSpec_of_miss hcached hspec
    simp only [tickReference, hcached] at href ⊢
    exact (loadUniverse_fromContexts h hload).tickSize hfound hsd href
  | some cached =>
    have hkept := szDecimalsAt_of_uniform h.uniform (show t.specCache symbol ≠ none by simp [hcached])
    simp only [tickReference, hcached] at href ⊢
    cases hquote : quoteCache symbol with
    | none =>
      have hfind : t.findSpec quoteCache symbol = (some cached, t) := by
        simp [InstrumentTables.findSpec, hcached, hquote]
      obtain ⟨rfl, rfl⟩ := instrumentSpec_of_hit hfind hspec
      rw [hquote] at href
      exact h.tickSize hcached hsd href
    | some q =>
      rw [hquote] at href
      dsimp only at href ⊢
      by_cases hbid : 0 < q.bid
      · -- the live bid
        have hfind : t.findSpec quoteCache symbol =
            (some { cached with tickSize := pow10i (-allowedDecimals q.bid (t.szDecimalsAt symbol).1) },
              t) := by
          simp [InstrumentTables.findSpec, hcached, hquote, hbid, hkept]
        obtain ⟨rfl, rfl⟩ := instrumentSpec_of_hit hfind hspec
        have hdecimals : (t'.szDecimalsAt symbol).1 = sd := by
          simp [InstrumentTables.szDecimalsAt, hsd]
        rw [if_pos hbid, hdecimals]
      · have hfind : t.findSpec quoteCache symbol = (some cached, t) := by
          simp [InstrumentTables.findSpec, hcached, hquote, hbid]
        obtain ⟨rfl, rfl⟩ := instrumentSpec_of_hit hfind hspec
        rw [if_neg hbid] at href ⊢
        exact h.tickSize hcached hsd href

end

/-- A post-only order sends a price that normalisation leaves alone. -/
lemma postOnlyLimit_price {formatDouble : ℚ → String} {t : InstrumentTables} {symbol : String}
    {side : OrderSide} {qty p : ℚ} {reduceOnly : Bool} {order : LimitOrder} {sd : ℤ}
    (hsd : t.szDecimals symbol = some sd) (hp : HasDecimals 8 p) (hkept : normalizePrice p sd = p)
    (h : postOnlyLimit formatDouble t symbol side qty p reduceOnly = .ok order) :
    decimalValue order.pxWire.toList = some p := by
  have hdecimals : t.szDecimalsFor symbol = sd := by
    rw [InstrumentTables.szDecimalsFor, hsd, Option.getD_some]
  have hsub : (Submission.postOnlyLimit symbol side qty p reduceOnly).order formatDouble t
      (fun _ => none) = .ok order := h
  obtain ⟨asset, side', reduceOnly', tif, hsent⟩ := limitOrder_of_order formatDouble hsub
  obtain ⟨-, hpx, -⟩ := limitOrder_ok formatDouble hsent
  rw [hpx, Submission.symbol, hdecimals, Submission.rawPrice, hkept]
  exact floatToWire_value hp

/-- An order goes out for a registered symbol unless its size rounds to zero. -/
lemma postOnlyLimit_returns_iff {formatDouble : ℚ → String} {t : InstrumentTables} {symbol : String}
    {side : OrderSide} {qty price : ℚ} {reduceOnly : Bool} {sd : ℤ}
    (hsd : t.szDecimals symbol = some sd) :
    (∃ order, postOnlyLimit formatDouble t symbol side qty price reduceOnly = .ok order) ↔
      0 ≤ t.assetFor symbol ∧ 0 < normalizeSize qty sd := by
  have hdecimals : t.szDecimalsFor symbol = sd := by
    rw [InstrumentTables.szDecimalsFor, hsd, Option.getD_some]
  unfold postOnlyLimit limitOrder
  rw [hdecimals]
  dsimp only
  split_ifs with hasset hsz
  · exact iff_of_false (by rintro ⟨_, h⟩; cases h) fun hboth => absurd hboth.1 (not_le.mpr hasset)
  · exact iff_of_false (by rintro ⟨_, h⟩; cases h) fun hboth => absurd hboth.2 (not_lt.mpr hsz)
  · exact iff_of_true ⟨_, rfl⟩ ⟨not_lt.mp hasset, not_le.mp hsz⟩

section
variable (r : JsonReaders)

/-- Below the next power of ten above its reference, the multiples of an advertised tick are
sent unchanged, as long as the size decimals of the coin stay the same and its order is one that
goes out. -/
theorem advertised_tick_sent {as : List Action} {s : Instruments}
    (hrun : Run (step r) anyStep initial as s) {symbol : String} {reply : Except RestError Json}
    {spec : InstrumentSpec} {t' : InstrumentTables}
    (hspec : s.tables.instrumentSpec r s.quoteCache symbol reply = (.ok spec, t'))
    {sd : ℕ} (hsd : sd ≤ 6) (hregistered : t'.szDecimals symbol = some (sd : ℤ))
    (href : 0 < tickReference s.tables t' s.quoteCache symbol)
    {n : ℕ} (hn : 0 < n)
    (hlt : n * spec.tickSize <
      (10 : ℚ)^(Int.log 10 (tickReference s.tables t' s.quoteCache symbol) + 1)) :
    normalizePrice (n * spec.tickSize) sd = n * spec.tickSize ∧
      (∀ (formatDouble : ℚ → String) (t : InstrumentTables) (side : OrderSide) (qty : ℚ)
        (reduceOnly : Bool) (order : LimitOrder), t.szDecimals symbol = some (sd : ℤ) →
        postOnlyLimit formatDouble t symbol side qty (n * spec.tickSize) reduceOnly = .ok order →
        decimalValue order.pxWire.toList = some (n * spec.tickSize)) ∧
      ∀ (formatDouble : ℚ → String) (t : InstrumentTables) (side : OrderSide) (qty : ℚ)
        (reduceOnly : Bool), t.szDecimals symbol = some (sd : ℤ) →
        ((∃ order, postOnlyLimit formatDouble t symbol side qty (n * spec.tickSize) reduceOnly =
          .ok order) ↔ 0 ≤ t.assetFor symbol ∧ 0 < normalizeSize qty sd) := by
  have htick := instrumentSpec_tickSize (fromContexts_of_run r hrun) hspec hregistered href
  obtain ⟨hwire, hkept⟩ := normalizePrice_tick_multiple hsd href hn (by rw [htick]) hlt
  refine ⟨hkept, ?_, fun _ _ _ _ _ hsame => postOnlyLimit_returns_iff hsame⟩
  intro formatDouble t side qty reduceOnly order hsame hsent
  exact postOnlyLimit_price hsame hwire hkept hsent

end

/-- One coin, with a live bid. -/
def btcAtBid : Instruments where
  tables := InstrumentTables.empty.load
    [⟨0, "BTC", 5, false, 0, 60000, 0, 0, 0⟩]
  quoteCache := Function.update (fun _ => none) "BTC" (some ⟨60000, 60001⟩)

/-- Ten ticks at a bid of 60000, and the order for one coin at this price. -/
theorem advertised_tick_sent_at_bid : ∃ spec order,
    Run (step documented) anyStep initial
      [.loadUniverse (.ok (btcReply false)), .bbo "BTC" ⟨60000, 60001⟩] btcAtBid ∧
    btcAtBid.tables.instrumentSpec documented btcAtBid.quoteCache "BTC" (.ok .null) =
      (.ok spec, btcAtBid.tables) ∧
    normalizePrice ((10 : ℕ) * spec.tickSize) (5 : ℕ) = (10 : ℕ) * spec.tickSize ∧
    postOnlyLimit (fun _ => "") btcAtBid.tables "BTC" .buy 1 ((10 : ℕ) * spec.tickSize) false =
      .ok order ∧
    decimalValue order.pxWire.toList = some 10 := by
  have hrun : Run (step documented) anyStep initial
      [.loadUniverse (.ok (btcReply false)), .bbo "BTC" ⟨60000, 60001⟩] btcAtBid := by
    have hcontexts : getAssetContexts documented (.ok (btcReply false)) =
        .ok [⟨0, "BTC", 5, false, 0, 60000, 0, 0, 0⟩] := rfl
    have hload : initial.tables.loadUniverse documented (.ok (btcReply false)) =
        .ok btcAtBid.tables := by
      rw [InstrumentTables.loadUniverse, hcontexts]
      rfl
    refine run_of_execute ?_
    simp only [execute, anyStep, step, hload, if_true]
    rfl
  have hquote : btcAtBid.quoteCache "BTC" = some ⟨60000, 60001⟩ := rfl
  have hcached : btcAtBid.tables.specCache "BTC" =
      some (AssetContext.spec ⟨0, "BTC", 5, false, 0, 60000, 0, 0, 0⟩) := rfl
  have hdecimals : btcAtBid.tables.szDecimals "BTC" = some 5 := rfl
  have href : tickReference btcAtBid.tables btcAtBid.tables btcAtBid.quoteCache "BTC" = 60000 := by
    simp [tickReference, hcached, hquote]
  have hspec : ∃ spec, btcAtBid.tables.instrumentSpec documented btcAtBid.quoteCache "BTC"
      (.ok .null) = (.ok spec, btcAtBid.tables) ∧
      spec.tickSize = pow10i (-allowedDecimals 60000 5) := by
    simp [InstrumentTables.instrumentSpec, InstrumentTables.findSpec, hcached, hquote,
      InstrumentTables.szDecimalsAt, hdecimals]
  obtain ⟨spec, hspec, hsize⟩ := hspec
  have htick : pow10i (-allowedDecimals 60000 5) = 1 := by
    norm_num [allowedDecimals, sigFigDecimals, pow10i, timesTen]
  obtain ⟨hkept, hsent, hreturns⟩ := advertised_tick_sent documented hrun hspec (n := 10)
    (by norm_num : 5 ≤ 6) rfl (by rw [href]; norm_num) (by norm_num)
    (by rw [href]; norm_num [hsize, htick])
  have hsize1 : 0 < normalizeSize 1 (5 : ℕ) := by
    rw [normalizeSize_eq, Rounding.roundTo_pos_iff zero_le_one]
    norm_num
  obtain ⟨order, horder⟩ := (hreturns (fun _ => "") btcAtBid.tables .buy 1 false hdecimals).mpr
    ⟨le_refl 0, hsize1⟩
  have hprice := hsent _ _ _ _ _ _ hdecimals horder
  rw [hsize, htick, mul_one] at hprice
  exact ⟨spec, order, hrun, hspec, hkept, horder, by simpa using hprice⟩

end HyperliquidApi.AdvertisedTick
