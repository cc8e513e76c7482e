import HyperliquidApi.Instruments

/-!
# Tables of the latest universe

Replies arrive one after the other, and between them the tables are read. Every load writes the
coins of its reply over those of earlier ones and takes none away.
-/
namespace HyperliquidApi.LatestUniverse
open Runs

/-- The tables and the quotes that `instrumentSpec` looks at. -/
structure Instruments where
  tables : InstrumentTables
  quoteCache : String → Option Quote

/-- What happens under the lock of the tables: a load by `start`, by `refreshInstruments` or after
a miss of `instrumentSpec`, the lookup of `instrumentSpec`, and the reference price that
`submitReduceOnlyMarket` takes from `lastMid` for a symbol with an asset. -/
inductive Action
  | loadUniverse (reply : Except RestError Json)
  | findSpec (symbol : String)
  | reference (symbol : String)
  | bbo (coin : String) (quote : Quote)

section
variable (r : JsonReaders)

def step (s : Instruments) : Action → Option Instruments
  | .loadUniverse reply =>
    match s.tables.loadUniverse r reply with
    | .error _ => some s
    | .ok tables => some { s with tables }
  | .findSpec symbol => some { s with tables := (s.tables.findSpec s.quoteCache symbol).2 }
  | .reference symbol =>
    if s.tables.assetFor symbol < 0 then none
    else some { s with tables := (s.tables.lastMidAt symbol).2 }
  | .bbo coin quote => some { s with quoteCache := Function.update s.quoteCache coin (some quote) }

end

def initial : Instruments := ⟨InstrumentTables.empty, fun _ => none⟩

def tradeable (contexts : List AssetContext) : List String :=
  (contexts.filter AssetContext.Tradeable).map AssetContext.coin

/-- The tables hold the coins of this reply, at their positions, and nothing from before. -/
structure Reflects (t : InstrumentTables) (contexts : List AssetContext) : Prop where
  assetIndex : ∀ coin, t.assetIndex coin ≠ none ↔ coin ∈ tradeable contexts
  szDecimals : ∀ coin, t.szDecimals coin ≠ none ↔ coin ∈ tradeable contexts
  lastMid : ∀ coin, t.lastMid coin ≠ none ↔ coin ∈ tradeable contexts
  specCache : ∀ coin, t.specCache coin ≠ none ↔ coin ∈ tradeable contexts
  positions : (tradeable contexts).Nodup → ∀ (i : ℕ) (ctx : AssetContext),
    contexts[i]? = some ctx → ctx.Tradeable → t.assetFor ctx.coin = i
  independent : t = InstrumentTables.empty.load contexts

section
variable (r : JsonReaders)

/-- After a load the tables reflect its reply, or they are as before where there was none. -/
def LatestReflected (s : Instruments) : Action → Prop
  | .loadUniverse reply => ∀ s', step r s (.loadUniverse reply) = some s' →
      match getAssetContexts r reply with
      | .error _ => s'.tables = s.tables
      | .ok contexts => Reflects s'.tables contexts
  | _ => True

/-- The coins of the tables are all among those that the reply has for trade. -/
def NoneDelisted (s : Instruments) : Action → Prop
  | .loadUniverse reply => ∀ contexts, getAssetContexts r reply = .ok contexts →
      ∀ coin, s.tables.assetIndex coin ≠ none → coin ∈ tradeable contexts
  | _ => True

lemma contextAt_position {«universe» ctxs : Json} {i : ℕ} {ctx : AssetContext}
    (h : contextAt r «universe» ctxs i = .ok ctx) : ctx.assetIndex = i := by
  obtain ⟨listedJson, _, h⟩ := bind_ok h
  obtain ⟨listed, _, h⟩ := bind_ok h
  dsimp only at h
  split at h
  · obtain ⟨ctxJson, _, h⟩ := bind_ok h
    obtain ⟨merged, _, h⟩ := bind_ok h
    obtain rfl := Except.ok.inj h
    rfl
  · obtain rfl := Except.ok.inj h
    rfl

/-- Contexts are numbered by their positions, those of delisted coins too. -/
lemma contextsFrom_position {«universe» ctxs : Json} {n i : ℕ} {contexts : List AssetContext}
    (h : contextsFrom r «universe» ctxs n i = .ok contexts) :
    ∀ (j : ℕ) (ctx : AssetContext), contexts[j]? = some ctx → ctx.assetIndex = (i : ℤ) + j := by
  induction n generalizing i contexts with
  | zero =>
    obtain rfl := Except.ok.inj h
    simp
  | succ n ih =>
    obtain ⟨first, hfirst, h⟩ := bind_ok h
    obtain ⟨rest, hrest, h⟩ := bind_ok h
    obtain rfl := Except.ok.inj h
    intro j ctx hj
    cases j with
    | zero =>
      obtain rfl := Option.some.inj hj
      simpa using contextAt_position r hfirst
    | succ j =>
      have hnext := ih hrest j ctx hj
      push_cast at hnext ⊢
      omega

end

structure Row where
  assetIndex : Option ℤ
  szDecimals : Option ℤ
  lastMid : Option ℚ
  spec : Option InstrumentSpec

def Row.absent : Row := ⟨none, none, none, none⟩

def Row.Complete (row : Row) : Prop :=
  row.assetIndex ≠ none ∧ row.szDecimals ≠ none ∧ row.lastMid ≠ none ∧ row.spec ≠ none

def row (t : InstrumentTables) (coin : String) : Row :=
  ⟨t.assetIndex coin, t.szDecimals coin, t.lastMid coin, t.specCache coin⟩

def contextRow (ctx : AssetContext) : Row :=
  ⟨some ctx.assetIndex, some ctx.szDecimals, some ctx.refPx, some ctx.spec⟩

/-- The four tables have the same keys. -/
def Uniform (t : InstrumentTables) : Prop := ∀ coin, row t coin = .absent ∨ (row t coin).Complete

/-- The last entry of a coin that can be traded. -/
def latest (contexts : List AssetContext) (coin : String) : Option AssetContext :=
  contexts.reverse.find? fun ctx => ctx.Tradeable ∧ ctx.coin = coin

lemma tables_ext {t t' : InstrumentTables} (h : ∀ coin, row t coin = row t' coin) : t = t' := by
  cases t
  cases t'
  simp only [row, Row.mk.injEq] at h
  simp only [InstrumentTables.mk.injEq]
  exact ⟨funext fun coin => (h coin).1, funext fun coin => (h coin).2.1,
    funext fun coin => (h coin).2.2.1, funext fun coin => (h coin).2.2.2⟩

lemma row_insert (t : InstrumentTables) (ctx : AssetContext) (coin : String) :
    row (t.insert ctx) coin =
      if ctx.Tradeable ∧ ctx.coin = coin then contextRow ctx else row t coin := by
  unfold InstrumentTables.insert AssetContext.Tradeable
  by_cases hskip : ctx.coin = "" ∨ ctx.isDelisted = true
  · simp [hskip]
  · by_cases hcoin : ctx.coin = coin
    · subst hcoin
      simp [hskip, row, contextRow]
    · have hcoin' : coin ≠ ctx.coin := fun h => hcoin h.symm
      simp [hskip, hcoin, row, hcoin']

lemma row_load (t : InstrumentTables) (contexts : List AssetContext) (coin : String) :
    row (t.load contexts) coin = (latest contexts coin).elim (row t coin) contextRow := by
  induction contexts using List.reverseRecOn with
  | nil => rfl
  | append_singleton contexts ctx ih =>
    have hload : t.load (contexts ++ [ctx]) = (t.load contexts).insert ctx := by
      simp [InstrumentTables.load]
    rw [hload, row_insert, ih]
    unfold latest
    rw [List.reverse_append, List.reverse_singleton, List.singleton_append, List.find?_cons]
    by_cases hctx : ctx.Tradeable ∧ ctx.coin = coin <;> simp [hctx]

lemma latest_some {contexts : List AssetContext} {coin : String} {ctx : AssetContext}
    (h : latest contexts coin = some ctx) :
    ctx ∈ contexts ∧ ctx.Tradeable ∧ ctx.coin = coin := by
  have hmem := List.mem_of_find?_eq_some h
  have hprop := List.find?_some h
  exact ⟨List.mem_reverse.mp hmem, by simpa using hprop⟩

lemma latest_none_iff {contexts : List AssetContext} {coin : String} :
    latest contexts coin = none ↔ coin ∉ tradeable contexts := by
  unfold latest tradeable
  rw [List.find?_eq_none]
  constructor
  · intro h hmem
    obtain ⟨ctx, hctx, hcoin⟩ := List.mem_map.mp hmem
    obtain ⟨hin, htradeable⟩ := List.mem_filter.mp hctx
    exact h ctx (List.mem_reverse.mpr hin) (by simpa [hcoin] using htradeable)
  · intro h ctx hctx htrue
    have hboth : ctx.Tradeable ∧ ctx.coin = coin := by simpa using htrue
    refine h (List.mem_map.mpr ⟨ctx, List.mem_filter.mpr ⟨List.mem_reverse.mp hctx, ?_⟩, hboth.2⟩)
    simpa using hboth.1

lemma Uniform.load {t : InstrumentTables} (h : Uniform t) (contexts : List AssetContext) :
    Uniform (t.load contexts) := by
  intro coin
  rw [row_load]
  cases latest contexts coin with
  | none => exact h coin
  | some ctx => exact .inr (by simp [Row.Complete, contextRow])

lemma Uniform.absent {t : InstrumentTables} (h : Uniform t) {coin : String}
    (hnone : t.assetIndex coin = none) : row t coin = .absent :=
  (h coin).resolve_right fun hcomplete => hcomplete.1 hnone

lemma row_load_empty (contexts : List AssetContext) (coin : String) :
    (coin ∈ tradeable contexts ∧ (row (InstrumentTables.empty.load contexts) coin).Complete) ∨
      (coin ∉ tradeable contexts ∧ row (InstrumentTables.empty.load contexts) coin = .absent) := by
  rw [row_load]
  cases hlatest : latest contexts coin with
  | none => exact .inr ⟨latest_none_iff.mp hlatest, rfl⟩
  | some ctx =>
    have hmem : coin ∈ tradeable contexts := by
      by_contra hnot
      rw [latest_none_iff.mpr hnot] at hlatest
      cases hlatest
    exact .inl ⟨hmem, by simp [Row.Complete, contextRow]⟩

lemma latest_of_nodup {contexts : List AssetContext} (hdistinct : (tradeable contexts).Nodup)
    {ctx : AssetContext} (hmem : ctx ∈ contexts) (hctx : ctx.Tradeable) :
    latest contexts ctx.coin = some ctx := by
  have hlisted : ctx ∈ contexts.filter AssetContext.Tradeable := by
    exact List.mem_filter.mpr ⟨hmem, by simpa using hctx⟩
  cases hlatest : latest contexts ctx.coin with
  | none => exact absurd (List.mem_map_of_mem hlisted) (latest_none_iff.mp hlatest)
  | some other =>
    obtain ⟨hin, htradeable, hcoin⟩ := latest_some hlatest
    have hother : other ∈ contexts.filter AssetContext.Tradeable := by
      exact List.mem_filter.mpr ⟨hin, by simpa using htradeable⟩
    rw [List.inj_on_of_nodup_map hdistinct hother hlisted hcoin]

lemma reflects_load_empty {contexts : List AssetContext}
    (hposition : ∀ (i : ℕ) (ctx : AssetContext), contexts[i]? = some ctx → ctx.assetIndex = i) :
    Reflects (InstrumentTables.empty.load contexts) contexts where
  assetIndex coin := by
    rcases row_load_empty contexts coin with ⟨hmem, hcomplete⟩ | ⟨hmem, habsent⟩
    · exact iff_of_true hcomplete.1 hmem
    · exact iff_of_false (not_not.mpr (congrArg Row.assetIndex habsent)) hmem
  szDecimals coin := by
    rcases row_load_empty contexts coin with ⟨hmem, hcomplete⟩ | ⟨hmem, habsent⟩
    · exact iff_of_true hcomplete.2.1 hmem
    · exact iff_of_false (not_not.mpr (congrArg Row.szDecimals habsent)) hmem
  lastMid coin := by
    rcases row_load_empty contexts coin with ⟨hmem, hcomplete⟩ | ⟨hmem, habsent⟩
    · exact iff_of_true hcomplete.2.2.1 hmem
    · exact iff_of_false (not_not.mpr (congrArg Row.lastMid habsent)) hmem
  specCache coin := by
    rcases row_load_empty contexts coin with ⟨hmem, hcomplete⟩ | ⟨hmem, habsent⟩
    · exact iff_of_true hcomplete.2.2.2 hmem
    · exact iff_of_false (not_not.mpr (congrArg Row.spec habsent)) hmem
  positions hdistinct i ctx hi hctx := by
    have hlatest := latest_of_nodup hdistinct (List.mem_of_getElem? hi) hctx
    have hrow := congrArg Row.assetIndex (row_load InstrumentTables.empty contexts ctx.coin)
    rw [hlatest] at hrow
    have hentry : (InstrumentTables.empty.load contexts).assetIndex ctx.coin = some ctx.assetIndex :=
      hrow
    rw [InstrumentTables.assetFor, hentry, Option.getD_some]
    exact hposition i ctx hi
  independent := rfl

lemma reflects_load_iff {t : InstrumentTables} (h : Uniform t) {contexts : List AssetContext}
    (hposition : ∀ (i : ℕ) (ctx : AssetContext), contexts[i]? = some ctx → ctx.assetIndex = i) :
    Reflects (t.load contexts) contexts ↔
      ∀ coin, t.assetIndex coin ≠ none → coin ∈ tradeable contexts := by
  constructor
  · intro hreflects coin hkey
    by_contra hmem
    have hkept : row (t.load contexts) coin = row t coin := by
      rw [row_load, latest_none_iff.mpr hmem]
      rfl
    have hstill : (t.load contexts).assetIndex coin ≠ none := by
      rw [show (t.load contexts).assetIndex coin = t.assetIndex coin from
        congrArg Row.assetIndex hkept]
      exact hkey
    exact hmem ((hreflects.assetIndex coin).mp hstill)
  · intro hlisted
    have hsame : t.load contexts = InstrumentTables.empty.load contexts := by
      apply tables_ext
      intro coin
      rw [row_load, row_load]
      cases hlatest : latest contexts coin with
      | some ctx => rfl
      | none =>
        have hnone : t.assetIndex coin = none := by
          by_contra hkey
          exact latest_none_iff.mp hlatest (hlisted coin hkey)
        exact h.absent hnone
    rw [hsame]
    exact reflects_load_empty hposition

lemma szDecimalsAt_of_uniform {t : InstrumentTables} (h : Uniform t) {symbol : String}
    (hkey : t.specCache symbol ≠ none) : (t.szDecimalsAt symbol).2 = t := by
  have hcomplete := (h symbol).resolve_left fun habsent => hkey (congrArg Row.spec habsent)
  obtain ⟨d, hd⟩ := Option.ne_none_iff_exists'.mp hcomplete.2.1
  have hentry : t.szDecimals symbol = some d := hd
  simp [InstrumentTables.szDecimalsAt, hentry]

lemma lastMidAt_of_uniform {t : InstrumentTables} (h : Uniform t) {symbol : String}
    (hkey : t.assetIndex symbol ≠ none) : (t.lastMidAt symbol).2 = t := by
  have hcomplete := (h symbol).resolve_left fun habsent => hkey (congrArg Row.assetIndex habsent)
  obtain ⟨px, hpx⟩ := Option.ne_none_iff_exists'.mp hcomplete.2.2.1
  have hentry : t.lastMid symbol = some px := hpx
  simp [InstrumentTables.lastMidAt, hentry]

lemma findSpec_of_uniform {t : InstrumentTables} (h : Uniform t)
    (quoteCache : String → Option Quote) (symbol : String) :
    (t.findSpec quoteCache symbol).2 = t := by
  unfold InstrumentTables.findSpec
  cases hspec : t.specCache symbol with
  | none => rfl
  | some spec =>
    have hkept : (t.szDecimalsAt symbol).2 = t := szDecimalsAt_of_uniform h (by simp [hspec])
    cases quoteCache symbol with
    | none => rfl
    | some q =>
      dsimp only
      split
      · exact hkept
      · rfl

section
variable (r : JsonReaders)

lemma position_of_reply {reply : Except RestError Json} {contexts : List AssetContext}
    (h : getAssetContexts r reply = .ok contexts) (i : ℕ) (ctx : AssetContext)
    (hi : contexts[i]? = some ctx) : ctx.assetIndex = i := by
  obtain ⟨json, _, h⟩ := bind_ok h
  dsimp only at h
  split at h
  · cases h
  · cases hread : contextsOf r json with
    | error e =>
      rw [hread] at h
      cases h
    | ok contexts' =>
      rw [hread] at h
      obtain rfl := Except.ok.inj h
      obtain ⟨first, _, hread⟩ := bind_ok hread
      obtain ⟨«universe», _, hread⟩ := bind_ok hread
      obtain ⟨ctxs, _, hread⟩ := bind_ok hread
      simpa using contextsFrom_position r hread i ctx hi

lemma tables_of_step {s s' : Instruments} {a : Action} (h : Uniform s.tables)
    (hs : step r s a = some s') :
    s'.tables = s.tables ∨ ∃ contexts, s'.tables = s.tables.load contexts := by
  cases a with
  | loadUniverse reply =>
    simp only [LatestUniverse.step] at hs
    split at hs
    · obtain rfl := Option.some.inj hs
      exact .inl rfl
    · rename_i tables hload
      obtain rfl := Option.some.inj hs
      obtain ⟨contexts, _, hload⟩ := bind_ok hload
      exact .inr ⟨contexts, (Except.ok.inj hload).symm⟩
  | findSpec symbol =>
    obtain rfl := Option.some.inj hs
    exact .inl (findSpec_of_uniform h s.quoteCache symbol)
  | reference symbol =>
    simp only [LatestUniverse.step] at hs
    split at hs
    · cases hs
    · rename_i hasset
      obtain rfl := Option.some.inj hs
      have hkey : s.tables.assetIndex symbol ≠ none := by
        intro hnone
        simp [InstrumentTables.assetFor, hnone] at hasset
      exact .inl (lastMidAt_of_uniform h hkey)
  | bbo coin quote =>
    obtain rfl := Option.some.inj hs
    exact .inl rfl

lemma Uniform.step {s s' : Instruments} {a : Action} (h : Uniform s.tables)
    (hs : step r s a = some s') : Uniform s'.tables := by
  rcases tables_of_step r h hs with hsame | ⟨contexts, hload⟩
  · rw [hsame]
    exact h
  · rw [hload]
    exact h.load contexts

lemma uniform_of_run {ok : Instruments → Action → Prop} {as : List Action} {s : Instruments}
    (h : Run (step r) ok initial as s) : Uniform s.tables := by
  apply Run.invariant (P := fun s => Uniform s.tables) _ _ h
  · exact fun coin => .inl rfl
  · exact fun s a s' hs _ hstep => hs.step r hstep

/-- `instrumentSpec` without another thread in between is its lookup and, after a miss, a load. -/
lemma instrumentSpec_steps (s : Instruments) (symbol : String) (reply : Except RestError Json) :
    execute (step r) anyStep s
        (if s.tables.specCache symbol = none then [.findSpec symbol, .loadUniverse reply]
          else [.findSpec symbol]) =
      some { s with tables := (s.tables.instrumentSpec r s.quoteCache symbol reply).2 } := by
  cases hspec : s.tables.specCache symbol with
  | none =>
    have hmiss : s.tables.findSpec s.quoteCache symbol = (none, s.tables) := by
      simp [InstrumentTables.findSpec, hspec]
    cases hload : s.tables.loadUniverse r reply with
    | error e =>
      simp [execute, anyStep, step, InstrumentTables.instrumentSpec, hmiss, hload]
    | ok loaded =>
      cases hfound : loaded.specCache symbol <;>
        simp [execute, anyStep, step, InstrumentTables.instrumentSpec, hmiss, hload, hfound]
  | some spec =>
    obtain ⟨found, t', hfind⟩ : ∃ found t', s.tables.findSpec s.quoteCache symbol =
        (some found, t') := by
      unfold InstrumentTables.findSpec
      rw [hspec]
      dsimp only
      split
      · split
        · exact ⟨_, _, rfl⟩
        · exact ⟨_, _, rfl⟩
      · exact ⟨_, _, rfl⟩
    simp [execute, anyStep, step, InstrumentTables.instrumentSpec, hfind]

lemma reflected_iff {s : Instruments} (h : Uniform s.tables) (a : Action) :
    LatestReflected r s a ↔ NoneDelisted r s a := by
  cases a with
  | loadUniverse reply =>
    cases hreply : getAssetContexts r reply with
    | error e =>
      have hload : s.tables.loadUniverse r reply = .error e := by
        simp [InstrumentTables.loadUniverse, hreply, bind, Except.bind]
      simp [LatestReflected, NoneDelisted, step, hreply, hload]
    | ok contexts =>
      have hload : s.tables.loadUniverse r reply = .ok (s.tables.load contexts) := by
        simp [InstrumentTables.loadUniverse, hreply, bind, Except.bind, pure, Except.pure]
      have hiff := reflects_load_iff h (position_of_reply r hreply)
      simpa [LatestReflected, NoneDelisted, step, hreply, hload] using hiff
  | _ => exact Iff.rfl

/-- The tables reflect the latest reply after every load of exactly those runs in which no coin of
an earlier reply is delisted in a later one. -/
theorem tables_reflect_latest_exactly {as : List Action} {s : Instruments} :
    Run (step r) (LatestReflected r) initial as s ↔ Run (step r) (NoneDelisted r) initial as s := by
  apply Run.congr (P := fun s => Uniform s.tables)
  · exact fun coin => .inl rfl
  · exact fun s a s' hs _ hstep => hs.step r hstep
  · exact fun s a s' hs _ => reflected_iff r hs a

end

/-- The readers as they are documented. -/
def documented : JsonReaders where
  readValue read json key default := json.value read key default
  readStringAsDouble json key default :=
    .ok (if (json.find key).isSome then json.readNum (fun _ => none) key else default)

def btcReply (isDelisted : Bool) : Json :=
  .array [.object [("universe", .array [.object [("name", .string "BTC"),
    ("szDecimals", .number (.unsigned 5)), ("isDelisted", .bool isDelisted)]])],
    .array [.object [("markPx", .number (.unsigned 60000))]]]

/-- The venue delists the only coin; the gateway keeps it, with its asset id. -/
theorem delisted_coin_kept : ∃ s contexts,
    Run (step documented) anyStep initial
      [.loadUniverse (.ok (btcReply false)), .loadUniverse (.ok (btcReply true))] s ∧
    getAssetContexts documented (.ok (btcReply true)) = .ok contexts ∧
    ¬ Reflects s.tables contexts := by
  refine ⟨_, _, run_of_execute rfl, rfl, ?_⟩
  intro hreflects
  have hlisted := (hreflects.assetIndex "BTC").mp (by decide)
  exact absurd hlisted (by decide)

end HyperliquidApi.LatestUniverse
