import FundingRadar.Json
import FundingRadar.Notifications
import FundingRadar.Rounding

/-!
`_maybe_alert` once it has the throttle key: the lookup of the APR windows in Redis or the
database, the text of the message, the send, and the deletion of the key. Every access to the
opportunity and to what Redis returns can raise, and so can Redis and the send. The key is
deleted only where the send reports a failure, so whatever raises before leaves it held
without an alert (`held_iff_delivered`).
-/
namespace FundingRadar
open NotificationService

/-- What a step of an alert raises. -/
inductive AlertError
  | redisError
  | sendError
  | python (e : PyError)
deriving DecidableEq

/-- The functions on texts and numbers that the message and the cache keys use. -/
structure Texts where
  /-- `str(v)`. -/
  str : Json → String
  /-- `json.loads`; `none` where it raises. -/
  loads : String → Option Json
  upper : String → String
  lower : String → String
  title : String → String
  /-- A number with so many decimals, always with its sign, or with its thousands set apart. -/
  fixed : ℕ → ℚ → String
  signed : ℕ → ℚ → String
  grouped : ℕ → ℚ → String

namespace Json

/-- A number for arithmetic and for number formats; a Boolean is one. -/
def asNumber : Json → Option ℚ
  | .num q => some q
  | .bool b => some (if b then 1 else 0)
  | _ => none
def Numeric (v : Json) : Prop := v.asNumber.isSome = true
instance (v : Json) : Decidable v.Numeric := inferInstanceAs (Decidable (_ = _))

/-- `format(v, spec)` for the format of a number. -/
def formatNumber (render : ℚ → String) (v : Json) : Except PyError String :=
  match v.asNumber,v with
  | some q,_ => .ok (render q)
  | none,.str _ => .error .valueError
  | none,_ => .error .typeError

/-- `min(v, w)`. Lists can be compared as well, but no number format takes one: `format`
    raises what this raises for them. -/
def minimum (v w : Json) : Except PyError Json :=
  match v.asNumber,w.asNumber with
  | some x,some y => .ok (if y < x then w else v)
  | _,_ =>
    match v,w with
    | .str s,.str t => .ok (if t < s then w else v)
    | _,_ => .error .typeError

end Json
open Json

/-- Whatever reading a value raises. -/
def python {α : Type} (x : Except PyError α) : Except AlertError α := x.mapError .python

/-! ### `APRWindowHelper` -/

namespace APRWindowHelper

/-- The row of the window query. -/
structure WindowRow where
  apr1h : Option ℚ
  apr8h : Option ℚ
  apr24h : Option ℚ
  apr7d : Option ℚ
  apr30d : Option ℚ
  dataPoints30d : Option ℤ

/-- What Redis and the database answer to one `get_windows`. A query that fails is logged, and
    counts as one without a row. -/
structure WindowReplies where
  get : Except AlertError (Option String)
  row : Option WindowRow
  set : Except AlertError Unit

/-- The labels of `_WINDOWS`. -/
def windowKeys : List String := ["apr_1h","apr_8h","apr_24h","apr_7d","apr_30d"]

/-- `_round`. -/
def roundWindow (value : Option ℚ) : Json := value.elim .null (fun v => .num (roundTo 4 v))
/-- `_empty_windows`. -/
def emptyWindows : Json := .obj (windowKeys.map (·,.null) ++ [("data_points_30d",.num 0)])
/-- `_query_windows`. -/
def queryWindows (row : Option WindowRow) : Json :=
  match row with
  | none => emptyWindows
  | some row =>
    .obj [("apr_1h",roundWindow row.apr1h),("apr_8h",roundWindow row.apr8h),("apr_24h",roundWindow row.apr24h),
      ("apr_7d",roundWindow row.apr7d),("apr_30d",roundWindow row.apr30d),("data_points_30d",.num (row.dataPoints30d.getD 0))]

variable (text : Texts)

def cacheKey (exchangeSlug : Json) (tokenSymbol : String) : String :=
  "apr_windows:" ++ text.str exchangeSlug ++ ":" ++ text.upper tokenSymbol

def getWindows (replies : WindowReplies) : Except AlertError Json := do
  let cached ← replies.get
  if cached.getD "" ≠ "" then
    match text.loads (cached.getD "") with
    | some windows => return windows
    | none => throw (.python .valueError)
  else
    replies.set
    return queryWindows replies.row

/-- One window of `get_pair_windows`: the short leg is paid, the long leg pays. -/
def netWindow (longW shortW : Json) (key : String) : Except PyError (String × Json) := do
  let longV ← longW.get key
  let shortV ← shortW.get key
  match longV,shortV with
  | .null,_ => return ("net_" ++ key,.null)
  | _,.null => return ("net_" ++ key,.null)
  | longV,shortV =>
    match shortV.asNumber,longV.asNumber with
    | some s,some l => return ("net_" ++ key,.num (roundTo 4 (s - l)))
    | _,_ => throw .typeError

/-- `get_pair_windows`, with the replies to the lookups of both legs. -/
def getPairWindows (long short : String → WindowReplies) (longExchange shortExchange : Json) (token : String) :
    Except AlertError Json := do
  let longW ← getWindows text (long (cacheKey text longExchange token))
  let shortW ← getWindows text (short (cacheKey text shortExchange token))
  let net ← python (windowKeys.mapM (netWindow longW shortW))
  return .obj ([("long_windows",longW),("short_windows",shortW)] ++ net)

end APRWindowHelper
open APRWindowHelper

/-! ### The message -/

namespace NotificationService
variable (text : Texts)

/-- `ex_link`. -/
def exLink (ex : Json) (t : String) : Except PyError String :=
  match ex with
  | .str s =>
    if text.lower s = "hyperliquid" then
      .ok ("<a href=\"https://app.hyperliquid.xyz/trade/" ++ t ++ "\">Hyperliquid</a>")
    else if text.lower s = "aster" then .ok ("<a href=\"https://app.asterdex.com/trade/" ++ t ++ "\">Aster</a>")
    else .ok (text.title s)
  | _ => .error .attributeError

/-- `trend_section`. -/
def trendSection (win : Json) : Except PyError String := do
  if win.truthy then
    let apr1h ← win.get "net_apr_1h"
    let apr24h ← win.get "net_apr_24h"
    match apr1h,apr24h with
    | .null,_ => return ""
    | _,.null => return ""
    | apr1h,apr24h =>
      match apr1h.asNumber,apr24h.asNumber with
      | some a,some b =>
        return "📊 <b>Trend</b>: " ++ (if a > b * (6 / 5) then "🔥 <b>Spiking</b>" else "✅ <b>Stable</b>") ++ "\n" ++
          "• 1h Avg: <code>" ++ text.signed 2 a ++ "%</code> ⚡\n" ++
          "• 24h Avg: <code>" ++ text.signed 2 b ++ "%</code> 🕒\n\n"
      | _,_ => throw .typeError
  else return ""

/-- `_format_alert`, at the time `ts`. -/
def formatAlert (ts token : String) (opp win : Json) : Except PyError String := do
  let longLeg ← opp.get "long_leg" (.obj [])
  let shortLeg ← opp.get "short_leg" (.obj [])
  let netApr ← opp.get "net_apr_taker" (← opp.get "funding_delta_apr" (.num 0))
  let priceSpread ← opp.get "price_spread_pct" (.num 0)
  let longOi ← longLeg.get "open_interest_usd" (.num 0)
  let shortOi ← shortLeg.get "open_interest_usd" (.num 0)
  let minOi ← longOi.minimum shortOi
  let trend ← trendSection text win
  let lexStr ← exLink text (← longLeg.get "exchange" (.str "?")) token
  let sexStr ← exLink text (← shortLeg.get "exchange" (.str "?")) token
  let netAprText ← netApr.formatNumber (text.fixed 2)
  let spreadText ← priceSpread.formatNumber (text.fixed 3)
  let minOiText ← minOi.formatNumber (text.grouped 0)
  return "🔔 <b>Arbitrage Alert: " ++ token ++ "</b>\n" ++ "\n" ++
    "📈 <b>Live APR</b>: <code>" ++ netAprText ++ "%</code> (Net)\n" ++ "\n" ++ trend ++
    "📍 Long:  " ++ lexStr ++ "\n" ++ "📍 Short: " ++ sexStr ++ "\n" ++ "\n" ++
    "💰 Spread: <code>" ++ spreadText ++ "%</code>\n" ++ "📊 Min OI: <code>$" ++ minOiText ++ "</code>\n" ++ "\n" ++
    "⏰ " ++ ts

/-! ### `_maybe_alert` -/

/-- What is answered to an alert that has the throttle key. -/
structure AlertReplies where
  longWindows : String → WindowReplies
  shortWindows : String → WindowReplies
  ts : String
  /-- What the sender reports. -/
  send : Except AlertError Bool
  /-- The deletion of the throttle key reaches Redis. -/
  deleted : Bool

/-- How a `_maybe_alert` ends: whether the throttle key is held, what was handed to the sender,
    whether it reported a delivery, and what the call raised. -/
structure AlertEnd where
  held : Bool
  handed : Option (String × String)
  delivered : Bool
  raised : Option AlertError

/-- The message, from the opportunity and the windows of its legs. -/
def prepareAlert (rule : LoadedRule) (opp : Json) (r : AlertReplies) : Except AlertError String := do
  let longExchange ← python (do (← opp.item "long_leg").item "exchange")
  let shortExchange ← python (do (← opp.item "short_leg").item "exchange")
  let win ← getPairWindows text r.longWindows r.shortWindows longExchange shortExchange rule.token
  python (formatAlert text r.ts rule.token opp win)

/-- `_maybe_alert`; `taken` says whether the throttle key is held when it is called. -/
def maybeAlertEnd (taken : Bool) (rule : LoadedRule) (opp : Json) (r : AlertReplies) : AlertEnd :=
  if taken then ⟨true,none,false,none⟩
  else
    match prepareAlert text rule opp r with
    | .error e => ⟨true,none,false,some e⟩
    | .ok msg =>
      match r.send with
      | .error e => ⟨true,some (rule.chatId,msg),false,some e⟩
      | .ok true => ⟨true,some (rule.chatId,msg),true,none⟩
      | .ok false => ⟨!r.deleted,some (rule.chatId,msg),false,if r.deleted then none else some .redisError⟩

/-! ### When a message can be prepared -/

/-- An object under a key, with the exchange and the open interest that the message shows. -/
def Leg (opp : Json) (key exchange : String) : Prop :=
  ∃ members, opp.item key = .ok (.obj members) ∧ Dict.lookup "exchange" members = some (.str exchange) ∧
    ((Dict.lookup "open_interest_usd" members).getD (.num 0)).Numeric

/-- The rates of an opportunity that the message shows. -/
def Rates (opp : Json) : Prop :=
  ∃ members, opp = .obj members ∧
    ((Dict.lookup "net_apr_taker" members).getD ((Dict.lookup "funding_delta_apr" members).getD (.num 0))).Numeric ∧
      ((Dict.lookup "price_spread_pct" members).getD (.num 0)).Numeric

/-- A lookup that Redis answers, with windows it has cached or can cache. -/
inductive Answered (replies : WindowReplies) : Json → Prop
  | cached {content : String} {windows : Json} (get : replies.get = .ok (some content)) (present : content ≠ "")
      (loads : text.loads content = some windows) : Answered replies windows
  | queried {cached : Option String} (get : replies.get = .ok cached) (missing : cached.getD "" = "")
      (stored : replies.set = .ok ()) : Answered replies (queryWindows replies.row)

/-- Windows of two legs that are missing or numbers. -/
def Comparable (longW shortW : Json) : Prop :=
  ∃ long short, longW = .obj long ∧ shortW = .obj short ∧ ∀ key ∈ windowKeys,
    (Dict.lookup key long).getD .null = .null ∨ (Dict.lookup key short).getD .null = .null ∨
      ((Dict.lookup key long).getD .null).Numeric ∧ ((Dict.lookup key short).getD .null).Numeric

/-- All that stands between the throttle key and the send. -/
structure Presentable (rule : LoadedRule) (opp : Json) (r : AlertReplies) : Prop where
  rates : Rates opp
  windows : ∃ longExchange shortExchange longW shortW, Leg opp "long_leg" longExchange ∧ Leg opp "short_leg" shortExchange ∧
    Answered text (r.longWindows (cacheKey text (.str longExchange) rule.token)) longW ∧
    Answered text (r.shortWindows (cacheKey text (.str shortExchange) rule.token)) shortW ∧ Comparable longW shortW

section
theorem python_eq_ok {α : Type} {x : Except PyError α} {a : α} : python x = .ok a ↔ x = .ok a := by
  cases x <;> simp [python,Except.mapError]

theorem item_eq_ok {v w : Json} {key : String} :
    v.item key = .ok w ↔ ∃ members, v = .obj members ∧ Dict.lookup key members = some w := by
  cases v with
  | obj members =>
    simp only [item]
    split <;> simp_all
  | _ => simp [item]

theorem get_eq_ok {v w d : Json} {key : String} :
    v.get key d = .ok w ↔ ∃ members, v = .obj members ∧ (Dict.lookup key members).getD d = w := by
  cases v with
  | obj members => simp [Json.get,get?,bind_eq_ok,pure,Except.pure]
  | _ => simp [Json.get,get?]

theorem exists_formatNumber_iff (render : ℚ → String) (v : Json) : (∃ s, v.formatNumber render = .ok s) ↔ v.Numeric := by
  cases v <;> simp [formatNumber,Numeric,asNumber]

theorem exists_exLink_iff (ex : Json) (t : String) : (∃ s, exLink text ex t = .ok s) ↔ ∃ exchange, ex = .str exchange := by
  cases ex with
  | str exchange =>
    simp only [exLink]
    split
    · simp
    · split <;> simp
  | _ => simp [exLink]

theorem minimum_numeric_iff {v w : Json} : (∃ m, v.minimum w = .ok m ∧ m.Numeric) ↔ v.Numeric ∧ w.Numeric := by
  constructor
  · rintro ⟨m,least,numeric⟩
    cases v with
    | str s =>
      cases w with
      | str t =>
        have ends : (if t < s then .str t else .str s) = m := Except.ok.inj least
        rw [← ends] at numeric
        split at numeric <;> cases numeric
      | _ => cases least
    | num x =>
      cases w with
      | num y => exact ⟨rfl,rfl⟩
      | bool b => exact ⟨rfl,rfl⟩
      | _ => cases least
    | bool b =>
      cases w with
      | num y => exact ⟨rfl,rfl⟩
      | bool b => exact ⟨rfl,rfl⟩
      | _ => cases least
    | _ => cases w <;> cases least
  · rintro ⟨isV,isW⟩
    obtain ⟨x,atV⟩ := Option.isSome_iff_exists.mp isV
    obtain ⟨y,atW⟩ := Option.isSome_iff_exists.mp isW
    refine ⟨if y < x then w else v,by simp only [minimum,atV,atW],?_⟩
    split
    · exact isW
    · exact isV

variable {text}

theorem exists_formatAlert_iff {ts token : String} {opp win : Json} (trend : ∃ s, trendSection text win = .ok s) :
    (∃ msg, formatAlert text ts token opp win = .ok msg) ↔ Rates opp ∧
      ∃ long short longExchange shortExchange, opp.get "long_leg" (.obj []) = .ok (.obj long) ∧
        opp.get "short_leg" (.obj []) = .ok (.obj short) ∧
        (Dict.lookup "exchange" long).getD (.str "?") = .str longExchange ∧
        (Dict.lookup "exchange" short).getD (.str "?") = .str shortExchange ∧
        ((Dict.lookup "open_interest_usd" long).getD (.num 0)).Numeric ∧
        ((Dict.lookup "open_interest_usd" short).getD (.num 0)).Numeric := by
  constructor
  · rintro ⟨msg,made⟩
    simp only [formatAlert,bind_eq_ok] at made
    obtain ⟨longLeg,isLong,shortLeg,isShort,funding,isFunding,netApr,isNet,spread,isSpread,longOi,isLongOi,
      shortOi,isShortOi,minOi,isMin,_,-,ex,isEx,_,linked,ex',isEx',_,linked',_,netText,_,spreadText,_,minText,-⟩ := made
    obtain ⟨members,rfl,rfl⟩ := get_eq_ok.mp isFunding
    obtain ⟨long,rfl,rfl⟩ := get_eq_ok.mp isLongOi
    obtain ⟨short,rfl,rfl⟩ := get_eq_ok.mp isShortOi
    obtain ⟨_,same,rfl⟩ := get_eq_ok.mp isNet
    cases same
    obtain ⟨_,same,rfl⟩ := get_eq_ok.mp isSpread
    cases same
    obtain ⟨_,same,rfl⟩ := get_eq_ok.mp isEx
    cases same
    obtain ⟨_,same,rfl⟩ := get_eq_ok.mp isEx'
    cases same
    obtain ⟨longExchange,isLongExchange⟩ := (exists_exLink_iff text _ _).mp ⟨_,linked⟩
    obtain ⟨shortExchange,isShortExchange⟩ := (exists_exLink_iff text _ _).mp ⟨_,linked'⟩
    obtain ⟨longNumeric,shortNumeric⟩ := minimum_numeric_iff.mp ⟨_,isMin,(exists_formatNumber_iff _ _).mp ⟨_,minText⟩⟩
    exact ⟨⟨members,rfl,(exists_formatNumber_iff _ _).mp ⟨_,netText⟩,(exists_formatNumber_iff _ _).mp ⟨_,spreadText⟩⟩,
      long,short,longExchange,shortExchange,isLong,isShort,isLongExchange,isShortExchange,longNumeric,shortNumeric⟩
  · rintro ⟨⟨members,rfl,net,spread⟩,long,short,longExchange,shortExchange,isLong,isShort,isLongExchange,isShortExchange,
      longNumeric,shortNumeric⟩
    obtain ⟨trendText,isTrend⟩ := trend
    obtain ⟨minOi,isMin,minNumeric⟩ := minimum_numeric_iff.mpr ⟨longNumeric,shortNumeric⟩
    obtain ⟨lexStr,isLex⟩ := (exists_exLink_iff text _ token).mpr ⟨_,isLongExchange⟩
    obtain ⟨sexStr,isSex⟩ := (exists_exLink_iff text _ token).mpr ⟨_,isShortExchange⟩
    obtain ⟨netText,isNet⟩ := (exists_formatNumber_iff (text.fixed 2) _).mpr net
    obtain ⟨spreadText,isSpread⟩ := (exists_formatNumber_iff (text.fixed 3) _).mpr spread
    obtain ⟨minText,isMinText⟩ := (exists_formatNumber_iff (text.grouped 0) _).mpr minNumeric
    simp only [formatAlert,bind_eq_ok]
    exact ⟨_,_,isLong,_,isShort,_,get_eq_ok.mpr ⟨members,rfl,rfl⟩,_,get_eq_ok.mpr ⟨members,rfl,rfl⟩,
      _,get_eq_ok.mpr ⟨members,rfl,rfl⟩,_,get_eq_ok.mpr ⟨long,rfl,rfl⟩,_,get_eq_ok.mpr ⟨short,rfl,rfl⟩,_,isMin,
      trendText,isTrend,_,get_eq_ok.mpr ⟨long,rfl,rfl⟩,lexStr,isLex,_,get_eq_ok.mpr ⟨short,rfl,rfl⟩,sexStr,isSex,
      netText,isNet,spreadText,isSpread,minText,isMinText,rfl⟩

theorem getWindows_eq_ok {replies : WindowReplies} {windows : Json} :
    getWindows text replies = .ok windows ↔ Answered text replies windows := by
  rw [getWindows,bind_eq_ok]
  constructor
  · rintro ⟨cached,got,rest⟩
    split at rest
    · next present =>
      cases cached with
      | none => exact absurd rfl present
      | some content =>
        cases loaded : text.loads content with
        | none =>
          simp only [Option.getD_some,loaded] at rest
          cases rest
        | some windows' =>
          simp only [Option.getD_some,loaded] at rest
          cases rest
          exact .cached got present loaded
    · next missing =>
      obtain ⟨⟨⟩,stored,done⟩ := bind_eq_ok.mp rest
      cases done
      exact .queried got (not_not.mp missing) stored
  · intro answered
    cases answered with
    | cached got present loaded =>
      refine ⟨_,got,?_⟩
      rw [Option.getD_some,if_pos present,loaded]
      rfl
    | queried got missing stored =>
      refine ⟨_,got,?_⟩
      rw [missing,stored]
      rfl

/-- A window is missing, or a number. -/
def Window (v : Json) : Prop := v = .null ∨ ∃ q, v = .num q

theorem netWindow_spec {longW shortW : Json} {key : String} {net : String × Json}
    (made : netWindow longW shortW key = .ok net) : net.1 = "net_" ++ key ∧ Window net.2 := by
  obtain ⟨longV,-,rest⟩ := bind_eq_ok.mp made
  obtain ⟨shortV,-,rest⟩ := bind_eq_ok.mp rest
  split at rest
  · cases rest
    exact ⟨rfl,.inl rfl⟩
  · cases rest
    exact ⟨rfl,.inl rfl⟩
  · split at rest
    · cases rest
      exact ⟨rfl,.inr ⟨_,rfl⟩⟩
    · cases rest

theorem exists_netWindow_iff (longW shortW : Json) (key : String) :
    (∃ net, netWindow longW shortW key = .ok net) ↔ ∃ longV shortV, longW.get key = .ok longV ∧
      shortW.get key = .ok shortV ∧ (longV = .null ∨ shortV = .null ∨ longV.Numeric ∧ shortV.Numeric) := by
  constructor
  · rintro ⟨net,made⟩
    obtain ⟨longV,gotLong,rest⟩ := bind_eq_ok.mp made
    obtain ⟨shortV,gotShort,rest⟩ := bind_eq_ok.mp rest
    refine ⟨longV,shortV,gotLong,gotShort,?_⟩
    split at rest
    · exact .inl rfl
    · exact .inr (.inl rfl)
    · split at rest
      · next isShort isLong =>
        refine .inr (.inr ⟨?_,?_⟩)
        · rw [Numeric,isLong]
          rfl
        · rw [Numeric,isShort]
          rfl
      · cases rest
  · rintro ⟨longV,shortV,gotLong,gotShort,either⟩
    rw [netWindow,gotLong,gotShort]
    rcases either with rfl | rfl | ⟨isLong,isShort⟩
    · exact ⟨_,rfl⟩
    · cases longV <;> exact ⟨_,rfl⟩
    · cases longV with
      | num l =>
        cases shortV with
        | num s => exact ⟨_,rfl⟩
        | bool b => exact ⟨_,rfl⟩
        | _ => cases isShort
      | bool c =>
        cases shortV with
        | num s => exact ⟨_,rfl⟩
        | bool b => exact ⟨_,rfl⟩
        | _ => cases isShort
      | _ => cases isLong

theorem exists_netWindows_iff (longW shortW : Json) :
    (∃ net, windowKeys.mapM (netWindow longW shortW) = .ok net) ↔ Comparable longW shortW := by
  rw [exists_mapM_iff]
  constructor
  · intro each
    obtain ⟨_,_,gotLong,gotShort,-⟩ := (exists_netWindow_iff _ _ _).mp (each "apr_1h" (by decide))
    obtain ⟨long,rfl,-⟩ := get_eq_ok.mp gotLong
    obtain ⟨short,rfl,-⟩ := get_eq_ok.mp gotShort
    refine ⟨long,short,rfl,rfl,?_⟩
    intro key member
    obtain ⟨longV,shortV,gotLong,gotShort,either⟩ := (exists_netWindow_iff _ _ _).mp (each key member)
    cases gotLong
    cases gotShort
    exact either
  · rintro ⟨long,short,rfl,rfl,each⟩ key member
    exact (exists_netWindow_iff _ _ _).mpr ⟨_,_,rfl,rfl,each key member⟩

theorem exists_trendSection_of_windows {win short long : Json} (present : win.truthy = true)
    (gotShort : win.get "net_apr_1h" = .ok short) (gotLong : win.get "net_apr_24h" = .ok long) (isShort : Window short)
    (isLong : Window long) : ∃ s, trendSection text win = .ok s := by
  rw [trendSection,if_pos present,gotShort,gotLong]
  rcases isShort with rfl | ⟨a,rfl⟩
  · exact ⟨_,rfl⟩
  · rcases isLong with rfl | ⟨b,rfl⟩
    · exact ⟨_,rfl⟩
    · exact ⟨_,rfl⟩

/-- The windows of a pair always have a trend section. -/
theorem exists_trendSection {longW shortW : Json} {net : List (String × Json)}
    (made : windowKeys.mapM (netWindow longW shortW) = .ok net) :
    ∃ s, trendSection text (.obj ([("long_windows",longW),("short_windows",shortW)] ++ net)) = .ok s := by
  have all := (mapM_eq_ok.mp made).imp (fun _ _ => netWindow_spec)
  simp only [windowKeys,List.forall₂_cons_left_iff,List.forall₂_nil_left_iff] at all
  obtain ⟨⟨_,v1⟩,_,⟨rfl,is1⟩,⟨⟨_,v8⟩,_,⟨rfl,-⟩,⟨⟨_,v24⟩,_,⟨rfl,is24⟩,-,rfl⟩,rfl⟩,rfl⟩ := all
  exact exists_trendSection_of_windows rfl rfl rfl is1 is24

theorem getPairWindows_eq_ok {long short : String → WindowReplies} {longExchange shortExchange win : Json} {token : String} :
    getPairWindows text long short longExchange shortExchange token = .ok win ↔ ∃ longW shortW net,
      Answered text (long (cacheKey text longExchange token)) longW ∧
      Answered text (short (cacheKey text shortExchange token)) shortW ∧
      windowKeys.mapM (netWindow longW shortW) = .ok net ∧
        win = .obj ([("long_windows",longW),("short_windows",shortW)] ++ net) := by
  simp only [getPairWindows,bind_eq_ok,getWindows_eq_ok,python_eq_ok]
  constructor
  · rintro ⟨longW,isLong,shortW,isShort,net,made,done⟩
    cases done
    exact ⟨longW,shortW,net,isLong,isShort,made,rfl⟩
  · rintro ⟨longW,shortW,net,isLong,isShort,made,rfl⟩
    exact ⟨longW,isLong,shortW,isShort,net,made,rfl⟩

theorem get_of_item {opp leg d : Json} {key : String} (found : opp.item key = .ok leg) : opp.get key d = .ok leg := by
  obtain ⟨members,rfl,present⟩ := item_eq_ok.mp found
  exact get_eq_ok.mpr ⟨members,rfl,by rw [present]; rfl⟩

/-- A message is prepared exactly of a presentable opportunity. -/
theorem exists_prepareAlert_iff (rule : LoadedRule) (opp : Json) (r : AlertReplies) :
    (∃ msg, prepareAlert text rule opp r = .ok msg) ↔ Presentable text rule opp r := by
  simp only [prepareAlert,bind_eq_ok,python_eq_ok,getPairWindows_eq_ok]
  constructor
  · rintro ⟨msg,longEx,⟨_,isLong,longItem⟩,shortEx,⟨_,isShort,shortItem⟩,win,
      ⟨longW,shortW,net,longAnswered,shortAnswered,made,rfl⟩,formatted⟩
    obtain ⟨long,rfl,longNamed⟩ := item_eq_ok.mp longItem
    obtain ⟨short,rfl,shortNamed⟩ := item_eq_ok.mp shortItem
    obtain ⟨rates,long',short',longExchange,shortExchange,isLong',isShort',longStr,shortStr,longOi,shortOi⟩ :=
      (exists_formatAlert_iff (exists_trendSection made)).mp ⟨msg,formatted⟩
    cases (get_of_item isLong).symm.trans isLong'
    cases (get_of_item isShort).symm.trans isShort'
    rw [longNamed,Option.getD_some] at longStr
    rw [shortNamed,Option.getD_some] at shortStr
    subst longStr shortStr
    exact ⟨rates,longExchange,shortExchange,longW,shortW,⟨long,isLong,longNamed,longOi⟩,⟨short,isShort,shortNamed,shortOi⟩,
      longAnswered,shortAnswered,(exists_netWindows_iff _ _).mp ⟨net,made⟩⟩
  · rintro ⟨rates,longExchange,shortExchange,longW,shortW,⟨long,isLong,longNamed,longOi⟩,⟨short,isShort,shortNamed,shortOi⟩,
      longAnswered,shortAnswered,comparable⟩
    obtain ⟨net,made⟩ := (exists_netWindows_iff _ _).mpr comparable
    have readable : ∃ msg, formatAlert text r.ts rule.token opp
        (.obj ([("long_windows",longW),("short_windows",shortW)] ++ net)) = .ok msg :=
      (exists_formatAlert_iff (exists_trendSection made)).mpr ⟨rates,long,short,longExchange,shortExchange,get_of_item isLong,
        get_of_item isShort,by rw [longNamed]; rfl,by rw [shortNamed]; rfl,longOi,shortOi⟩
    obtain ⟨msg,formatted⟩ := readable
    have longItem := item_eq_ok.mpr ⟨long,rfl,longNamed⟩
    have shortItem := item_eq_ok.mpr ⟨short,rfl,shortNamed⟩
    exact ⟨msg,_,⟨_,isLong,longItem⟩,_,⟨_,isShort,shortItem⟩,_,⟨longW,shortW,net,longAnswered,shortAnswered,made,rfl⟩,
      formatted⟩

end

/-! ### The throttle key -/

/-- An alert that has the throttle key ends with the key held if it was delivered and free if
    it was not, exactly when the opportunity can be presented and the sender reports a delivery,
    or a failure after which the deletion of the key reaches Redis. -/
theorem held_iff_delivered (text : Texts) (rule : LoadedRule) (opp : Json) (r : AlertReplies) :
    ((maybeAlertEnd text false rule opp r).held = true ↔ (maybeAlertEnd text false rule opp r).delivered = true) ↔
      Presentable text rule opp r ∧ (r.send = .ok true ∨ r.send = .ok false ∧ r.deleted = true) := by
  rw [← exists_prepareAlert_iff,maybeAlertEnd]
  cases prepared : prepareAlert text rule opp r with
  | error e => simp
  | ok msg =>
    cases sent : r.send with
    | error e => simp
    | ok delivered => cases delivered <;> cases r.deleted <;> simp

/-- Texts of which only the cached windows matter. -/
def plainTexts : Texts where
  str := fun v => match v with
    | .str s => s
    | _ => ""
  loads := fun _ => none
  upper := id
  lower := id
  title := id
  fixed := fun _ _ => ""
  signed := fun _ _ => ""
  grouped := fun _ _ => ""

/-- An opportunity as the calculator publishes it, as far as an alert reads it. -/
def publishedOpportunity : Json :=
  .obj [("token",.str "BTC"),("net_apr_taker",.num 20),("price_spread_pct",.num (1 / 10)),
    ("long_leg",.obj [("exchange",.str "aster"),("open_interest_usd",.num 1000000)]),
    ("short_leg",.obj [("exchange",.str "hyperliquid"),("open_interest_usd",.num 2000000)])]

/-- Redis grants the throttle key and fails at the cached windows of the long leg. -/
def lostRedis : AlertReplies where
  longWindows := fun _ => ⟨.error .redisError,none,.ok ()⟩
  shortWindows := fun _ => ⟨.ok none,none,.ok ()⟩
  ts := ""
  send := .ok true
  deleted := true

theorem lostRedis_held :
    ¬((maybeAlertEnd plainTexts false ⟨1,1,"BTC",10,[],"42"⟩ publishedOpportunity lostRedis).held = true ↔
      (maybeAlertEnd plainTexts false ⟨1,1,"BTC",10,[],"42"⟩ publishedOpportunity lostRedis).delivered = true) := by
  decide

end NotificationService
end FundingRadar
