import Mathlib.Data.List.Induction
import Mathlib.Logic.Function.Basic
import FundingRadar.Aster

/-!
Runs of the Aster collector, followed together with the last entry that the stream
wrote for every symbol. The cache always holds that entry, and where there is none it
holds the first one that REST wrote. So a published record is fresh exactly when the
stream has reported its symbol.
-/
namespace FundingRadar.AsterCollector
open BaseCollector NormalizedFundingData

/-! ### Runs -/

/-- What the collector does and is told. An event is one entry of a message. -/
inductive Op
  | loadExchangeInfo (response : Option Json)
  | preloadTickerCache (tickers premiums fundingInfo : Option Json)
  | event (event : Json)
  | pollRest (nowMs : ℤ) (tickers premiums : Option Json)

/-- The entry that an operation writes for the stream. -/
def accepted (py : Numerals) (c : AsterCollector) : Op → Option (Scalar × MarkSnapshot)
  | .event event => match c.readEvent py event with
    | .ok written => written
    | .error _ => none
  | _ => none

/-- The collector after one operation. -/
def step (py : Numerals) (c : AsterCollector) : Op → AsterCollector
  | .loadExchangeInfo response => c.loadExchangeInfo response
  | .preloadTickerCache tickers premiums fundingInfo => c.preloadTickerCache py tickers premiums fundingInfo
  | .event event => match c.processMarkPriceEvent py event with
    | .ok after => after
    | .error _ => c
  | .pollRest nowMs tickers premiums => (c.pollRest py nowMs tickers premiums).1

/-- A collector together with the last entry that the stream wrote for every symbol. -/
structure Trace where
  collector : AsterCollector
  lastEvent : Scalar → Option MarkSnapshot

def Trace.step (py : Numerals) (t : Trace) (op : Op) : Trace where
  collector := t.collector.step py op
  lastEvent := match t.collector.accepted py op with
    | none => t.lastEvent
    | some (symbol,snapshot) => Function.update t.lastEvent symbol (some snapshot)
/-- The trace of a sequence of operations on a new collector. -/
def run (py : Numerals) (config : CollectorConfig) (ops : List Op) : Trace :=
  ops.foldl (Trace.step py) ⟨init config,fun _ => none⟩

theorem mergePremium_keeps {py : Numerals} {before after : Dict Scalar MarkSnapshot} {item : Json}
    (merged : mergePremium py before item = .ok after) {symbol : Scalar} {snap : MarkSnapshot}
    (found : before.get? symbol = some snap) : after.get? symbol = some snap := by
  simp only [mergePremium,bind_eq_ok] at merged
  obtain ⟨sym,_,merged⟩ := merged
  split at merged
  · cases merged
    exact found
  · obtain ⟨key,_,merged⟩ := bind_eq_ok.mp merged
    split at merged
    · cases merged
      exact found
    · next absent =>
      obtain ⟨entry,_,merged⟩ := bind_eq_ok.mp merged
      cases merged
      have other : symbol ≠ key := by
        rintro rfl
        rw [found] at absent
        exact absent rfl
      rw [Dict.get?_insert,if_neg other,found]

/-- What one operation does to the entry of a symbol: the stream writes it, and
    nothing else changes one that is there. -/
theorem step_keeps (py : Numerals) (c : AsterCollector) (op : Op) {symbol : Scalar} {snap : MarkSnapshot}
    (found : c.wsSnapshots.get? symbol = some snap) (quiet : ∀ written, c.accepted py op ≠ some (symbol,written)) :
    (c.step py op).wsSnapshots.get? symbol = some snap := by
  have merges : ∀ premiums : List Json,
      (accumulate (mergePremium py) c.wsSnapshots premiums).1.get? symbol = some snap := by
    intro premiums
    exact accumulate_keeps (fun snapshots => snapshots.get? symbol = some snap)
      (fun _ _ _ _ merged kept => mergePremium_keeps merged kept) found
  cases op with
  | loadExchangeInfo response => exact found
  | preloadTickerCache tickers premiums fundingInfo => exact merges (items premiums)
  | event event =>
    simp only [step,processMarkPriceEvent]
    cases read : c.readEvent py event with
    | error e => exact found
    | ok written =>
      cases written with
      | none => exact found
      | some entry =>
        obtain ⟨key,written⟩ := entry
        have other : symbol ≠ key := by
          rintro rfl
          exact quiet written (by rw [accepted,read])
        change (c.wsSnapshots.insert key written).get? symbol = some snap
        rw [Dict.get?_insert,if_neg other,found]
  | pollRest nowMs tickers premiums =>
    simp only [step,pollRest]
    split
    · exact found
    · split
      · exact found
      · exact merges _

theorem step_accepted {py : Numerals} {c : AsterCollector} {op : Op} {symbol : Scalar} {snap : MarkSnapshot}
    (written : c.accepted py op = some (symbol,snap)) : (c.step py op).wsSnapshots.get? symbol = some snap := by
  cases op with
  | event event =>
    simp only [accepted] at written
    split at written
    · next result read =>
      subst written
      have processed : c.processMarkPriceEvent py event =
          .ok { c with wsSnapshots := c.wsSnapshots.insert symbol snap } := by
        rw [processMarkPriceEvent,read]
        rfl
      simp only [step,processed,Dict.get?_insert_self]
    · cases written
  | loadExchangeInfo response => cases written
  | preloadTickerCache tickers premiums fundingInfo => cases written
  | pollRest nowMs tickers premiums => cases written

/-- The cache holds the last entry of the stream for every symbol it reported. -/
def Trace.Current (t : Trace) : Prop :=
  ∀ symbol snap, t.lastEvent symbol = some snap → t.collector.wsSnapshots.get? symbol = some snap

theorem Trace.Current.step {py : Numerals} {t : Trace} (current : t.Current) (op : Op) : (t.step py op).Current := by
  intro symbol snap last
  simp only [Trace.step] at last ⊢
  cases written : t.collector.accepted py op with
  | none =>
    rw [written] at last
    exact step_keeps py _ op (current symbol snap last) (by simp [written])
  | some entry =>
    obtain ⟨key,entry⟩ := entry
    simp only [written] at last
    by_cases same : symbol = key
    · subst same
      rw [Function.update_self] at last
      cases last
      exact step_accepted written
    · rw [Function.update_of_ne same] at last
      refine step_keeps py _ op (current symbol snap last) fun other again => ?_
      rw [written] at again
      exact same (Prod.mk.inj (Option.some.inj again)).1.symm

theorem run_current (py : Numerals) (config : CollectorConfig) (ops : List Op) : (run py config ops).Current := by
  induction ops using List.reverseRecOn with
  | nil => intro symbol snap last; cases last
  | append_singleton ops op ih =>
    rw [run,List.foldl_append]
    exact ih.step op

theorem reported_after {py : Numerals} {t : Trace} (ops : List Op) {symbol : Scalar} {snap : MarkSnapshot}
    (reported : t.lastEvent symbol = some snap) : ∃ snap, (ops.foldl (Trace.step py) t).lastEvent symbol = some snap := by
  induction ops generalizing t snap with
  | nil => exact ⟨snap,reported⟩
  | cons op rest ih =>
    cases written : t.collector.accepted py op with
    | none =>
      have same : (t.step py op).lastEvent symbol = some snap := by simp only [Trace.step,written,reported]
      exact ih same
    | some entry =>
      obtain ⟨key,entry⟩ := entry
      by_cases hit : symbol = key
      · have new : (t.step py op).lastEvent symbol = some entry := by
          simp only [Trace.step,written,hit,Function.update_self]
        exact ih new
      · have same : (t.step py op).lastEvent symbol = some snap := by
          simp only [Trace.step,written,Function.update_of_ne hit,reported]
        exact ih same

/-- While the stream is silent about a symbol, its entry stays the one that REST
    wrote first, whatever later polls fetch. -/
theorem frozen_without_event (py : Numerals) (t : Trace) (ops : List Op) {symbol : Scalar} {snap : MarkSnapshot}
    (found : t.collector.wsSnapshots.get? symbol = some snap)
    (silent : (ops.foldl (Trace.step py) t).lastEvent symbol = none) :
    (ops.foldl (Trace.step py) t).collector.wsSnapshots.get? symbol = some snap := by
  induction ops generalizing t with
  | nil => exact found
  | cons op rest ih =>
    refine ih (t.step py op) ?_ silent
    refine step_keeps py _ op found fun written reported => ?_
    have now : (t.step py op).lastEvent symbol = some written := by simp only [Trace.step,reported,Function.update_self]
    obtain ⟨later,still⟩ := reported_after rest now
    rw [List.foldl_cons,still] at silent
    cases silent

/-- A message is a sequence of events: an exception drops the ones after it. -/
theorem handleWsMessage_eq_events (py : Numerals) (c : AsterCollector) (msg : Json) :
    ∃ events : List Json, c.handleWsMessage py msg = (events.map Op.event).foldl (step py) c := by
  unfold handleWsMessage
  split
  · exact ⟨[],rfl⟩
  · next events read =>
    clear read
    induction events generalizing c with
    | nil => exact ⟨[],rfl⟩
    | cons event rest ih =>
      rw [accumulate]
      cases processed : c.processMarkPriceEvent py event with
      | error e => exact ⟨[],rfl⟩
      | ok after =>
        obtain ⟨before,same⟩ := ih after
        refine ⟨event :: before,?_⟩
        simp only [List.map_cons,List.foldl_cons,step,processed]
        exact same

/-! ### Freshness -/

/-- An item of `premiumIndex` is about a symbol. -/
def Names (item : Json) (symbol : String) : Prop := item.item "symbol" = .ok (.str symbol)

/-- A published record is fresh: it carries the last event of its symbol; before any,
    it carries what the response of its own poll says of the symbol, if anything,
    and is not marked live. -/
def Fresh (py : Numerals) (lastEvent : Scalar → Option MarkSnapshot) (premiums : Option Json)
    (r : NormalizedFundingData) : Prop :=
  match lastEvent (.str r.symbol) with
  | some snap => Carries py r snap
  | none => ((∃ item ∈ items premiums, Names item r.symbol) →
      ∃ item ∈ items premiums, Names item r.symbol ∧ ∃ snap, readPremium py item = .ok snap ∧ Carries py r snap) ∧
    r.isLive = false

/-- After any run, a poll publishes a fresh record of a symbol exactly when the stream
    has reported the symbol. -/
theorem fresh_iff_event_accepted (py : Numerals) (config : CollectorConfig) (ops : List Op) (nowMs : ℤ)
    (tickers premiums : Option Json) {results : List NormalizedFundingData}
    (polled : ((run py config ops).collector.pollRest py nowMs tickers premiums).2 = .ok results)
    {r : NormalizedFundingData} (member : r ∈ results) :
    Fresh py (run py config ops).lastEvent premiums r ↔ ∃ snap, (run py config ops).lastEvent (.str r.symbol) = some snap := by
  obtain ⟨entry,found,made⟩ := pollRest_spec polled member
  rw [Fresh]
  cases last : (run py config ops).lastEvent (.str r.symbol) with
  | none =>
    constructor
    · rintro ⟨-,notLive⟩
      rw [made.live] at notLive
      cases notLive
    · rintro ⟨snap,impossible⟩
      cases impossible
  | some snap =>
    refine ⟨fun _ => ⟨snap,rfl⟩,fun _ => ?_⟩
    -- The poll merges its response around the entry that the stream wrote.
    have kept : ((run py config ops).collector.step py (.pollRest nowMs tickers premiums)).wsSnapshots.get?
        (.str r.symbol) = some snap :=
      step_keeps py _ _ (run_current py config ops _ snap last) (by intro written; exact nofun)
    obtain rfl : entry = snap := Option.some.inj (found.symm.trans kept)
    exact made.carries

/-! ### A silent symbol -/

/-- The number that a string of decimal digits denotes. -/
def readDigits (s : String) : Option ℕ :=
  if s = "" then none
  else s.toList.foldlM (fun n c => if c.isDigit then some (10 * n + (c.toNat - '0'.toNat)) else none) 0
/-- Numerals that are plain digits. -/
def digits : Numerals := ⟨fun s => (readDigits s).map (fun n => n),fun s => (readDigits s).map (fun n => n)⟩
def ethTickers : Json := .arr [.obj [("symbol",.str "ETHUSDT"),("quoteVolume",.str "5000")]]
def ethPremiums (price : String) : Json :=
  .arr [.obj [("symbol",.str "ETHUSDT"),("markPrice",.str price),("indexPrice",.str price),
    ("lastFundingRate",.num (1 / 10000)),("nextFundingTime",.num 28800000)]]
def ethEvent (price : String) : Json :=
  .obj [("e",.str "markPriceUpdate"),("s",.str "ETHUSDT"),("p",.str price),("i",.str price),("r",.num (1 / 10000)),
    ("T",.num 28800000)]

/-- What a poll publishes for the symbol at a price. -/
def ethRecord (price : ℚ) : NormalizedFundingData where
  exchange := "aster"
  token := "ETH"
  symbol := "ETHUSDT"
  fundingRate := 1 / 10000
  fundingRate8h := 1 / 10000
  fundingApr := 1095 / 100
  fundingIntervalHours := 8
  nextFundingTime := some 28800000
  predictedRate := none
  markPrice := price
  indexPrice := price
  openInterestUsd := 5000
  volume24hUsd := 5000
  priceSpreadPct := 0
  makerFee := 1 / 100
  takerFee := 35 / 1000
  timestamp := 30000
  isLive := true

/-- The first poll sees the symbol at 100 and the second at 110, and the second
    publishes 100, marked live. -/
theorem secondPoll_not_fresh :
    ((run digits {} [.pollRest 0 (some ethTickers) (some (ethPremiums "100"))]).collector.pollRest digits 30000
      (some ethTickers) (some (ethPremiums "110"))).2 = .ok [ethRecord 100] ∧
    ¬ Fresh digits (run digits {} [.pollRest 0 (some ethTickers) (some (ethPremiums "100"))]).lastEvent
      (some (ethPremiums "110")) (ethRecord 100) := by
  refine ⟨by decide +kernel,?_⟩
  rintro ⟨-,notLive⟩
  cases notLive

/-- After an event the same poll is fresh. -/
theorem secondPoll_after_event :
    Fresh digits (run digits {} [.pollRest 0 (some ethTickers) (some (ethPremiums "100")),.event (ethEvent "105")]).lastEvent
      (some (ethPremiums "110")) (ethRecord 105) :=
  have polled : ((run digits {} [.pollRest 0 (some ethTickers) (some (ethPremiums "100")),
      .event (ethEvent "105")]).collector.pollRest digits 30000 (some ethTickers) (some (ethPremiums "110"))).2 =
      .ok [ethRecord 105] := by decide +kernel
  have reported : ((run digits {} [.pollRest 0 (some ethTickers) (some (ethPremiums "100")),
      .event (ethEvent "105")]).lastEvent (.str "ETHUSDT")).isSome = true := by decide +kernel
  (fresh_iff_event_accepted digits {} _ 30000 (some ethTickers) (some (ethPremiums "110")) polled (.head _)).mpr
    (Option.isSome_iff_exists.mp reported)

end FundingRadar.AsterCollector
