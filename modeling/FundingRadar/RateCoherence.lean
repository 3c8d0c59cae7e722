import FundingRadar.Hyperliquid
import FundingRadar.Extended
import FundingRadar.Pacifica
import FundingRadar.AsterFreshness

/-!
The rates of every record that a collector emits, live or from its history. All
collectors take the APR from one helper; the 8 hour rate is the reported rate times a
factor that each of them fixes, and it fits the interval everywhere but at Aster,
where the interval depends on the symbol.
-/
namespace FundingRadar
open NormalizedFundingData

inductive Collector
  | hyperliquid
  | aster
  | extended
  | pacifica
deriving DecidableEq

/-- A record that a collector emits for a symbol with a funding interval. -/
inductive Emits (py : Numerals) : Collector → ℤ → {τ : Type} → NormalizedFundingData τ → Prop
  | hyperliquidLive {nowMs : ℤ} {c last : HyperliquidCollector} {rawData : Json}
      {normalized : List (NormalizedFundingData Scalar)} {r : NormalizedFundingData Scalar}
      (ran : c.normalize py nowMs rawData = (last,.ok normalized)) (member : r ∈ normalized) : Emits py .hyperliquid 1 r
  | hyperliquidHistory {c : HyperliquidCollector} {warmUp : Option Json} {server : Scalar → ℕ → ℤ → ℤ → Option Json}
      {startMs endMs nowMs : ℤ} {requests : ℕ} {r : NormalizedFundingData Scalar}
      (member : r ∈ c.fetchHistoryRange py warmUp server startMs endMs nowMs requests) : Emits py .hyperliquid 1 r
  | extendedLive {nowMs : ℤ} {c : ExtendedCollector} {response : Option Json} {results : List NormalizedFundingData}
      {r : NormalizedFundingData} (ran : c.pollRest py nowMs response = .ok results) (member : r ∈ results) :
      Emits py .extended 1 r
  | extendedHistory {c : ExtendedCollector} {info : Option Json} {server : String → ℕ → ℤ → ℤ → Option Json}
      {startMs endMs nowMs : ℤ} {requests : ℕ} {r : NormalizedFundingData}
      (member : r ∈ (c.fetchHistoryRange py info server startMs endMs nowMs requests).1) : Emits py .extended 1 r
  | pacificaLive {nowMs : ℤ} {c : PacificaCollector} {info response : Option Json} {results : List NormalizedFundingData}
      {r : NormalizedFundingData} (ran : (c.pollRest py nowMs info response).2 = .ok results) (member : r ∈ results) :
      Emits py .pacifica 8 r
  | asterLive {nowMs : ℤ} {c : AsterCollector} {results : List NormalizedFundingData} {r : NormalizedFundingData}
      (ran : c.buildNormalized py nowMs = .ok results) (member : r ∈ results) :
      Emits py .aster (c.interval (.str r.symbol)) r
  | asterHistory {c : AsterCollector} {info : Option Json} {server : String → ℕ → ℤ → ℤ → Option Json}
      {startMs endMs nowMs : ℤ} {requests : ℕ} {r : NormalizedFundingData}
      (member : r ∈ (c.fetchHistoryRange py info server startMs endMs nowMs requests).1) :
      Emits py .aster (c.interval (.str r.symbol)) r

/-- The factor between the reported rate and the 8 hour rate. -/
def Collector.eightHourFactor : Collector → ℚ
  | .hyperliquid => 8
  | .extended => 8
  | .aster => 1
  | .pacifica => 1

theorem Emits.rated {py : Numerals} {collector : Collector} {hours : ℤ} {τ : Type} {r : NormalizedFundingData τ}
    (emitted : Emits py collector hours r) : r.Rated collector.eightHourFactor ∧ r.fundingIntervalHours = hours := by
  cases emitted with
  | hyperliquidLive ran member => exact HyperliquidCollector.normalize_rated ran member
  | hyperliquidHistory member => exact HyperliquidCollector.fetchHistoryRange_rated member
  | extendedLive ran member => exact ExtendedCollector.pollRest_rated ran member
  | extendedHistory member => exact ExtendedCollector.fetchHistoryRange_rated member
  | pacificaLive ran member => exact PacificaCollector.pollRest_rated ran member
  | asterLive ran member =>
    obtain ⟨snap,-,made⟩ := AsterCollector.buildNormalized_spec ran member
    exact ⟨made.rated,made.interval⟩
  | asterHistory member => exact AsterCollector.fetchHistoryRange_rated member

theorem Emits.hours_of_not_aster {py : Numerals} {collector : Collector} {hours : ℤ} {τ : Type}
    {r : NormalizedFundingData τ} (emitted : Emits py collector hours r) (other : collector ≠ .aster) :
    collector.eightHourFactor * hours = 8 := by
  cases emitted with
  | hyperliquidLive => norm_num [Collector.eightHourFactor]
  | hyperliquidHistory => norm_num [Collector.eightHourFactor]
  | extendedLive => norm_num [Collector.eightHourFactor]
  | extendedHistory => norm_num [Collector.eightHourFactor]
  | pacificaLive => norm_num [Collector.eightHourFactor]
  | asterLive => exact absurd rfl other
  | asterHistory => exact absurd rfl other

/-- The rates of an emitted record belong together exactly when it is not from Aster,
    or its symbol settles every eight hours, or it pays nothing. -/
theorem rateCoherent_iff (py : Numerals) {collector : Collector} {hours : ℤ} {τ : Type} {r : NormalizedFundingData τ}
    (emitted : Emits py collector hours r) (positive : 0 < hours) :
    r.RateCoherent ↔ (collector = .aster → hours = 8 ∨ r.fundingRate = 0) := by
  obtain ⟨rated,same⟩ := emitted.rated
  rw [rated.coherent_iff (by rw [same]; exact positive),same]
  by_cases aster : collector = .aster
  · subst aster
    simp only [Collector.eightHourFactor,one_mul,true_implies]
    norm_cast
  · simp only [aster,false_implies,iff_true]
    exact .inl (emitted.hours_of_not_aster aster)

/-- A collector whose start-up loads an interval of four hours. -/
def fourHourly : AsterCollector :=
  (AsterCollector.init {}).preloadTickerCache AsterCollector.digits none (some (AsterCollector.ethPremiums "100"))
    (some (.arr [.obj [("symbol",.str "ETHUSDT"),("fundingIntervalHours",.num 4)]]))

/-- It emits a record whose 8 hour rate is the rate of four hours. -/
theorem fourHourly_not_coherent :
    ∃ r, Emits AsterCollector.digits .aster 4 (r : NormalizedFundingData) ∧ r.fundingRate = 1 / 10000 ∧
      r.fundingRate8h = 1 / 10000 ∧ ¬ r.RateCoherent := by
  have emitted : fourHourly.buildNormalized AsterCollector.digits 30000 =
      .ok [{ AsterCollector.ethRecord 100 with
        fundingApr := 219 / 10,fundingIntervalHours := 4,openInterestUsd := 0,volume24hUsd := 0 }] := by decide +kernel
  refine ⟨_,.asterLive emitted (.head _),rfl,rfl,?_⟩
  intro coherent
  have half := coherent.eightHour
  norm_num [AsterCollector.ethRecord] at half

/-- Without the four hours the record is coherent. -/
theorem eightHourly_coherent : (AsterCollector.ethRecord 100).RateCoherent :=
  have emitted : (AsterCollector.run AsterCollector.digits {} [.pollRest 0 (some AsterCollector.ethTickers)
      (some (AsterCollector.ethPremiums "100"))]).collector.buildNormalized AsterCollector.digits 30000 =
      .ok [AsterCollector.ethRecord 100] := by decide +kernel
  (rateCoherent_iff AsterCollector.digits (.asterLive emitted (.head _)) (by decide)).mpr (fun _ => .inl (by decide))

end FundingRadar
