import FundingRadar.Followers
import FundingRadar.FundingBus

/-!
The two places that hold the current record of a token on an exchange: the key
`funding:latest:…`, which a collector sets behind the message it publishes, and the normalizer
of the service, which is fed by the messages. Pipelines of several collectors run interleaved,
messages wait in the subscription, keys lapse and the normalizer purges. Both places follow the
log of the published records, so once no pipeline and no message is under way they agree
(`views_agree`).
-/
namespace FundingRadar
open Runs Subscriptions FundingBus Followers

/-- A command of the pipeline of `_publish_batch`. -/
inductive RedisCommand
  | publish (d : NormalizedFundingData)
  | set (d : NormalizedFundingData)

/-- What a poll of one collector publishes. Its records name the exchange of the collector, whose
    slug has no colon. -/
structure Batch where
  exchange : String
  items : List NormalizedFundingData
  own : ∀ d ∈ items, d.exchange = exchange
  plain : ':' ∉ exchange.toList

/-- The loop of `_publish_batch`. -/
def Batch.commands (items : List NormalizedFundingData) : List RedisCommand :=
  match items with
  | [] => []
  | d :: rest => .publish d :: .set d :: Batch.commands rest

/-- The pipelines of the collectors, as far as Redis has not executed them, what it holds under
    `funding:latest:…`, and the service. -/
structure LiveData where
  pipelines : String → List RedisCommand
  latest : Dict String NormalizedFundingData
  service : TypedService

namespace LiveData

inductive Action
  /-- `_publish_batch`; the collector does not begin one before the last has returned. -/
  | batch (b : Batch)
  /-- Redis executes the next command of the pipeline of an exchange. -/
  | execute (exchange : String)
  /-- The rest of a pipeline is lost. -/
  | cut (exchange : String)
  /-- A key lapses. -/
  | expire (key : String)
  /-- A step of the service, which publishes nothing on its own channel. -/
  | service (a : FundingBus.Action NormalizedFundingData)

def step (s : LiveData) : Action → LiveData
  | .batch b => if s.pipelines b.exchange = [] then
      { s with pipelines := Function.update s.pipelines b.exchange (Batch.commands b.items) } else s
  | .execute exchange =>
    match s.pipelines exchange with
    | [] => s
    | .publish d :: rest =>
      { s with pipelines := Function.update s.pipelines exchange rest, service := s.service.step (.bus (.publish d)) }
    | .set d :: rest =>
      { s with
        pipelines := Function.update s.pipelines exchange rest
        latest := s.latest.insert (TokenKeys.latestKey d.exchange d.token) d }
  | .cut exchange => { s with pipelines := Function.update s.pipelines exchange [] }
  | .expire key => { s with latest := s.latest.erase key }
  | .service (.bus (.publish _)) => s
  | .service a => { s with service := s.service.step a }

/-- What a step does to the log of the published records, and what the two places may forget. -/
inductive Mark
  | announced (d : NormalizedFundingData)
  | lapsed (key : String)
  | purged
def mark (s : LiveData) : Action → List Mark
  | .execute exchange =>
    match s.pipelines exchange with
    | .publish d :: _ => [.announced d]
    | _ => []
  | .expire key => [.lapsed key]
  | .service (.purge _) => [.purged]
  | _ => []

def run (s : LiveData) (actions : List Action) : LiveData := actions.foldl step s
def marks (s : LiveData) (actions : List Action) : List Mark := outputs step mark s actions
def Mark.record? : Mark → Option NormalizedFundingData
  | .announced d => some d
  | _ => none
/-- The records that have been published. -/
def log (out : List Mark) : List NormalizedFundingData := out.filterMap Mark.record?

def keyOf (d : NormalizedFundingData) : String × String := (d.exchange,d.token)
/-- The record that has been published and whose key has not been set. -/
def outstanding : List RedisCommand → List NormalizedFundingData
  | .set d :: _ => [d]
  | _ => []

/-- The step neither ends the subscription nor cuts a pipeline between the message of a record and
    its key. -/
def Calm (s : LiveData) : Action → Prop
  | .cut exchange => outstanding (s.pipelines exchange) = []
  | .service (.bus a) => a ≠ .stop ∧ a ≠ .failed
  | _ => True

/-- Nothing is under way: the subscription is up, and every pipeline has been executed. -/
structure AtRest (s : LiveData) : Prop where
  pipelines : ∀ exchange, s.pipelines exchange = []
  listener : s.service.listener = .listening []

/-! ### Keys -/

/-- The first colon of a text is found again. -/
theorem append_colon_inj {xs ys us vs : List Char} (plain : ':' ∉ xs) (plain' : ':' ∉ ys) (same : xs ++ ':' :: us = ys ++ ':' :: vs) :
    xs = ys ∧ us = vs := by
  induction xs generalizing ys with
  | nil =>
    cases ys with
    | nil => exact ⟨rfl,(List.cons.inj same).2⟩
    | cons c ys => exact absurd (List.mem_cons.mpr (.inl (List.cons.inj same).1)) plain'
  | cons c xs ih =>
    cases ys with
    | nil => exact absurd (List.mem_cons.mpr (.inl (List.cons.inj same).1.symm)) plain
    | cons c' ys =>
      obtain ⟨rfl,rest⟩ := List.cons.inj same
      obtain ⟨heads,tails⟩ := ih (fun member => plain (List.mem_cons_of_mem c member))
        (fun member => plain' (List.mem_cons_of_mem c member)) rest
      exact ⟨congrArg (c :: ·) heads,tails⟩

theorem latestKey_injective {exchange exchange' token token' : String} (plain : ':' ∉ exchange.toList) (plain' : ':' ∉ exchange'.toList)
    (same : TokenKeys.latestKey exchange token = TokenKeys.latestKey exchange' token') : exchange = exchange' ∧ token = token' := by
  have chars : exchange.toList ++ ':' :: token.toList = exchange'.toList ++ ':' :: token'.toList := by
    have lists := congrArg String.toList same
    simpa [TokenKeys.latestKey,String.toList_append] using lists
  obtain ⟨exchanges,tokens⟩ := append_colon_inj plain plain' chars
  exact ⟨String.toList_inj.mp exchanges,String.toList_inj.mp tokens⟩

/-! ### The invariant -/

/-- A pipeline has whole records to publish, behind a key that it still has to set. -/
structure Staged (exchange : String) (commands : List RedisCommand) : Prop where
  staged : ∃ items, (∀ d ∈ items, d.exchange = exchange) ∧
    (commands = Batch.commands items ∨ ∃ d, d.exchange = exchange ∧ commands = .set d :: Batch.commands items)
  plain : commands ≠ [] → ':' ∉ exchange.toList

structure Inv (out : List Mark) (s : LiveData) : Prop where
  up : s.service.listener.Up
  quiet : s.service.listener.Quiet
  staged : ∀ exchange, Staged exchange (s.pipelines exchange)
  plain : ∀ d ∈ log out, ':' ∉ d.exchange.toList
  cache : ∀ exchange token, ':' ∉ exchange.toList → Follows keyOf (log out) (outstanding (s.pipelines exchange))
    (s.latest.get? (TokenKeys.latestKey exchange token)) (.lapsed (TokenKeys.latestKey exchange token) ∈ out) (exchange,token)
  normalizer : ∀ exchange token, Follows keyOf (log out) (pending s.service)
    ((s.service.normalizer.getSnapshot exchange token).map ExchangeSnapshot.data) (.purged ∈ out) (exchange,token)

/-! ### The service -/

theorem getSnapshot_of_stored (n : DataNormalizer) (now : ℚ) (d : NormalizedFundingData) (exchange token : String) :
    (keyOf d = (exchange,token) → ((n.update now d).getSnapshot exchange token).map ExchangeSnapshot.data = some d) ∧
      (keyOf d ≠ (exchange,token) → (n.update now d).getSnapshot exchange token = n.getSnapshot exchange token) := by
  rw [DataNormalizer.getSnapshot_update]
  constructor
  · rintro same
    obtain ⟨rfl,rfl⟩ := Prod.mk.inj same
    rw [if_pos ⟨rfl,rfl⟩]
    rfl
  · intro differ
    rw [if_neg fun both => differ (Prod.ext both.1.symm both.2.symm)]

/-- What a step of the service does to what waits and to the normalizer. -/
theorem service_step {s : TypedService} (up : s.listener.Up) (quiet : s.listener.Quiet) {a : Subscriptions.Action NormalizedFundingData Reading}
    (running : a ≠ .stop) (connected : a ≠ .failed) :
    (s.step (.bus a)).listener.Up ∧ (s.step (.bus a)).listener.Quiet ∧
      (pending (s.step (.bus a)) = pending s ++ publishedIn [.bus a] ∧ (s.step (.bus a)).normalizer = s.normalizer ∨
        ∃ e : NormalizedFundingData × Reading, pending s = e.1 :: pending (s.step (.bus a)) ∧ publishedIn [.bus a] = [] ∧
          (s.step (.bus a)).normalizer = s.normalizer.update e.2.now e.1) := by
  have stays := stays_of_running up quiet running connected
  refine ⟨step_up up stays,step_quiet quiet fun _ _ _ => rfl,?_⟩
  obtain ⟨listener,normalizer,counter⟩ := s
  cases listener with
  | listening waiting =>
    cases a with
    | stop => exact stays.elim
    | failed => exact stays.elim
    | publish d => exact .inl ⟨rfl,rfl⟩
    | take reading => cases waiting <;> exact .inl ⟨(List.append_nil _).symm,rfl⟩
    | _ => exact .inl ⟨(List.append_nil _).symm,rfl⟩
  | handling left raised waiting =>
    cases a with
    | stop => exact stays.elim
    | publish d => cases left <;> exact .inl ⟨(List.append_assoc _ _ _).symm,rfl⟩
    | advance =>
      cases left with
      | cons e left => exact .inr ⟨e,rfl,rfl,rfl⟩
      | nil =>
        obtain rfl : raised = none := quiet
        exact .inl ⟨(List.append_nil _).symm,rfl⟩
    | _ => cases left <;> exact .inl ⟨(List.append_nil _).symm,rfl⟩
  | _ => exact up.elim

/-! ### One step -/

theorem record?_append (out : List Mark) (m : Mark) : log (out ++ [m]) = log out ++ m.record?.toList := by
  rw [log,log,List.filterMap_append]
  cases m <;> rfl

theorem outstanding_commands (items : List NormalizedFundingData) : outstanding (Batch.commands items) = [] := by
  cases items <;> rfl

variable {out : List Mark} {s : LiveData}

/-- A step of the service that leaves the pipelines and the keys as they are. -/
theorem Inv.served (inv : Inv out s) {a : FundingBus.Action NormalizedFundingData} (calm : Calm s (.service a))
    (silent : ∀ d, a ≠ .bus (.publish d)) : Inv (out ++ s.mark (.service a)) { s with service := s.service.step a } := by
  cases a with
  | bus a =>
    obtain ⟨up,quiet,moved⟩ := service_step inv.up inv.quiet calm.1 calm.2
    have nothing : publishedIn [.bus a] = [] := by
      cases a with
      | publish d => exact absurd rfl (silent d)
      | _ => rfl
    have unmarked : s.mark (.service (.bus a)) = [] := rfl
    rw [unmarked,List.append_nil]
    refine ⟨up,quiet,inv.staged,inv.plain,inv.cache,fun exchange token => ?_⟩
    rw [nothing] at moved
    rcases moved with ⟨same,still⟩ | ⟨e,head,-,stored⟩
    · show Follows _ _ (pending (s.service.step (.bus a))) _ _ _
      rw [same,List.append_nil,still]
      exact inv.normalizer exchange token
    · have follows := inv.normalizer exchange token
      rw [head] at follows
      show Follows _ _ _ (((s.service.step (.bus a)).normalizer.getSnapshot exchange token).map _) _ _
      rw [stored]
      obtain ⟨own,others⟩ := getSnapshot_of_stored s.service.normalizer e.2.now e.1 exchange token
      exact follows.consume own fun differ => congrArg _ (others differ)
  | recalculate reading =>
    have unmarked : s.mark (.service (.recalculate reading)) = [] := rfl
    rw [unmarked,List.append_nil]
    exact ⟨inv.up,inv.quiet,inv.staged,inv.plain,inv.cache,inv.normalizer⟩
  | purge now =>
    have logged : log (out ++ [.purged]) = log out := by rw [record?_append]; exact List.append_nil _
    show Inv (out ++ [.purged]) _
    refine ⟨inv.up,inv.quiet,inv.staged,?_,?_,?_⟩
    · rw [logged]; exact inv.plain
    · intro exchange token noColon
      rw [logged]
      exact (inv.cache exchange token noColon).forget (fun before => List.mem_append_left _ before) (.inl rfl)
    · intro exchange token
      rw [logged]
      refine (inv.normalizer exchange token).forget (fun before => List.mem_append_left _ before) ?_
      have kept := DataNormalizer.getSnapshot_purgeStale s.service.normalizer now exchange token
      show Option.map _ ((s.service.normalizer.purgeStale now).1.getSnapshot exchange token) = _ ∨
        Option.map _ ((s.service.normalizer.purgeStale now).1.getSnapshot exchange token) = none ∧ _
      rw [kept]
      cases s.service.normalizer.getSnapshot exchange token with
      | none => exact .inl rfl
      | some snap =>
        by_cases fresh : (!snap.isStale s.service.normalizer.staleAfter now) = true
        · exact .inl (congrArg (Option.map ExchangeSnapshot.data) (Option.filter_some_pos fresh))
        · exact .inr ⟨congrArg (Option.map ExchangeSnapshot.data) (Option.filter_some_neg (Bool.eq_false_iff.mpr fresh)),
            List.mem_append_right _ (List.mem_singleton_self _)⟩

theorem Inv.batch (inv : Inv out s) (b : Batch) : Inv out (s.step (.batch b)) := by
  by_cases idle : s.pipelines b.exchange = []
  · have stepped : s.step (.batch b) = { s with pipelines := Function.update s.pipelines b.exchange (Batch.commands b.items) } := if_pos idle
    rw [stepped]
    refine ⟨inv.up,inv.quiet,fun exchange => ?_,inv.plain,fun exchange token noColon => ?_,inv.normalizer⟩
    · by_cases own : exchange = b.exchange
      · subst own
        simp only [Function.update_self]
        exact ⟨⟨b.items,b.own,.inl rfl⟩,fun _ => b.plain⟩
      · simp only [Function.update_of_ne own]
        exact inv.staged exchange
    · have follows := inv.cache exchange token noColon
      by_cases own : exchange = b.exchange
      · subst own
        simp only [Function.update_self,outstanding_commands]
        rw [idle] at follows
        exact follows
      · simp only [Function.update_of_ne own]
        exact follows
  · have stepped : s.step (.batch b) = s := if_neg idle
    rw [stepped]
    exact inv

/-- Redis publishes the message of the next record. -/
theorem Inv.published (inv : Inv out s) {exchange : String} {d : NormalizedFundingData} {rest : List RedisCommand}
    (next : s.pipelines exchange = .publish d :: rest) :
    Inv (out ++ [.announced d])
      { s with pipelines := Function.update s.pipelines exchange rest, service := s.service.step (.bus (.publish d)) } := by
  obtain ⟨⟨items,own,shape⟩,noColon⟩ := inv.staged exchange
  rw [next] at shape noColon
  obtain ⟨later,here,others,rfl⟩ : ∃ later, d.exchange = exchange ∧ (∀ d' ∈ later, d'.exchange = exchange) ∧
      rest = .set d :: Batch.commands later := by
    rcases shape with same | ⟨d',-,impossible⟩
    · cases items with
      | nil => cases same
      | cons d' later =>
        cases same
        exact ⟨later,own d (List.mem_cons_self ..),fun d' member => own d' (List.mem_cons_of_mem d member),rfl⟩
    · cases impossible
  have logged : log (out ++ [.announced d]) = log out ++ [d] := record?_append out (.announced d)
  have kept : ∀ m ∈ out, m ∈ out ++ [.announced d] := fun m before => List.mem_append_left _ before
  obtain ⟨up,quiet,moved⟩ := @service_step s.service inv.up inv.quiet (.publish d) (fun impossible => by cases impossible)
    (fun impossible => by cases impossible)
  obtain ⟨queued,same⟩ := moved.resolve_right fun taken => by
    obtain ⟨_,-,impossible,-⟩ := taken
    cases impossible
  refine ⟨up,quiet,fun exchange' => ?_,fun d' member => ?_,fun exchange' token noColon' => ?_,fun exchange' token => ?_⟩
  · by_cases mine : exchange' = exchange
    · subst mine
      simp only [Function.update_self]
      exact ⟨⟨later,others,.inr ⟨d,here,rfl⟩⟩,fun _ => noColon (List.cons_ne_nil _ _)⟩
    · simp only [Function.update_of_ne mine]
      exact inv.staged exchange'
  · rw [logged] at member
    rcases List.mem_append.mp member with old | new
    · exact inv.plain d' old
    · obtain rfl := List.mem_singleton.mp new
      exact here ▸ noColon (List.cons_ne_nil _ _)
  · rw [logged]
    have follows := (inv.cache exchange' token noColon').forget (kept _) (.inl rfl)
    by_cases mine : exchange' = exchange
    · subst mine
      rw [next] at follows
      simp only [Function.update_self]
      exact follows.append d
    · simp only [Function.update_of_ne mine]
      exact follows.append_other fun same => mine (here ▸ (congrArg Prod.fst same).symm)
  · rw [logged]
    show Follows _ _ (pending (s.service.step (.bus (.publish d)))) _ _ _
    rw [queued,same]
    exact ((inv.normalizer exchange' token).forget (kept _) (.inl rfl)).append d

/-- Redis sets the key of the record it has published. -/
theorem Inv.cached (inv : Inv out s) {exchange : String} {d : NormalizedFundingData} {rest : List RedisCommand}
    (next : s.pipelines exchange = .set d :: rest) :
    Inv out { s with
      pipelines := Function.update s.pipelines exchange rest
      latest := s.latest.insert (TokenKeys.latestKey d.exchange d.token) d } := by
  obtain ⟨⟨items,own,shape⟩,noColon⟩ := inv.staged exchange
  rw [next] at shape noColon
  have plain := noColon (List.cons_ne_nil _ _)
  obtain ⟨here,rfl⟩ : d.exchange = exchange ∧ rest = Batch.commands items := by
    rcases shape with impossible | ⟨d',here,same⟩
    · cases items <;> cases impossible
    · cases same
      exact ⟨here,rfl⟩
  refine ⟨inv.up,inv.quiet,fun exchange' => ?_,inv.plain,fun exchange' token noColon' => ?_,inv.normalizer⟩
  · by_cases mine : exchange' = exchange
    · subst mine
      simp only [Function.update_self]
      exact ⟨⟨items,own,.inl rfl⟩,fun _ => plain⟩
    · simp only [Function.update_of_ne mine]
      exact inv.staged exchange'
  · have follows := inv.cache exchange' token noColon'
    rw [Dict.get?_insert]
    have separate : keyOf d ≠ (exchange',token) → TokenKeys.latestKey exchange' token ≠ TokenKeys.latestKey d.exchange d.token := by
      intro differ same
      obtain ⟨exchanges,tokens⟩ := latestKey_injective noColon' (here ▸ plain) same
      exact differ (Prod.ext exchanges.symm tokens.symm)
    by_cases mine : exchange' = exchange
    · subst mine
      rw [next] at follows
      simp only [Function.update_self,outstanding_commands]
      refine follows.consume (fun same => if_pos ?_) (fun differ => if_neg (separate differ))
      obtain ⟨exchanges,tokens⟩ := Prod.mk.inj same
      rw [exchanges,tokens]
    · simp only [Function.update_of_ne mine]
      rw [if_neg (separate fun same => mine (here ▸ (congrArg Prod.fst same).symm))]
      exact follows

theorem Inv.executed (inv : Inv out s) (exchange : String) : Inv (out ++ s.mark (.execute exchange)) (s.step (.execute exchange)) := by
  cases next : s.pipelines exchange with
  | nil =>
    simp only [mark,step,next,List.append_nil]
    exact inv
  | cons c rest =>
    cases c with
    | publish d =>
      simp only [mark,step,next]
      exact inv.published next
    | set d =>
      simp only [mark,step,next,List.append_nil]
      exact inv.cached next

theorem Inv.cut (inv : Inv out s) {exchange : String} (whole : outstanding (s.pipelines exchange) = []) :
    Inv out (s.step (.cut exchange)) := by
  refine ⟨inv.up,inv.quiet,fun exchange' => ?_,inv.plain,fun exchange' token noColon => ?_,inv.normalizer⟩
  · by_cases mine : exchange' = exchange
    · subst mine
      simp only [step,Function.update_self]
      exact ⟨⟨[],(fun _ impossible => by cases impossible),.inl rfl⟩,fun impossible => absurd rfl impossible⟩
    · simp only [step,Function.update_of_ne mine]
      exact inv.staged exchange'
  · have follows := inv.cache exchange' token noColon
    by_cases mine : exchange' = exchange
    · subst mine
      rw [whole] at follows
      simp only [step,Function.update_self]
      exact follows
    · simp only [step,Function.update_of_ne mine]
      exact follows

theorem Inv.expired (inv : Inv out s) (key : String) : Inv (out ++ [.lapsed key]) (s.step (.expire key)) := by
  have logged : log (out ++ [.lapsed key]) = log out := by rw [record?_append]; exact List.append_nil _
  have kept : ∀ m ∈ out, m ∈ out ++ [.lapsed key] := fun m before => List.mem_append_left _ before
  refine ⟨inv.up,inv.quiet,inv.staged,?_,fun exchange token noColon => ?_,fun exchange token => ?_⟩
  · rw [logged]; exact inv.plain
  · rw [logged]
    refine (inv.cache exchange token noColon).forget (kept _) ?_
    simp only [step,Dict.get?_erase]
    by_cases mine : TokenKeys.latestKey exchange token = key
    · exact .inr ⟨if_pos mine,List.mem_append_right _ (List.mem_singleton.mpr (congrArg _ mine))⟩
    · exact .inl (if_neg mine)
  · rw [logged]
    exact (inv.normalizer exchange token).forget (kept _) (.inl rfl)

theorem step_inv (inv : Inv out s) {a : Action} (calm : Calm s a) : Inv (out ++ s.mark a) (s.step a) := by
  cases a with
  | batch b =>
    have unmarked : s.mark (.batch b) = [] := rfl
    rw [unmarked,List.append_nil]
    exact inv.batch b
  | execute exchange => exact inv.executed exchange
  | cut exchange =>
    have unmarked : s.mark (.cut exchange) = [] := rfl
    rw [unmarked,List.append_nil]
    exact inv.cut calm
  | expire key => exact inv.expired key
  | service a =>
    by_cases silent : ∀ d, a ≠ .bus (.publish d)
    · have stepped : s.step (.service a) = { s with service := s.service.step a } := by
        cases a with
        | bus a =>
          cases a with
          | publish d => exact absurd rfl (silent d)
          | _ => rfl
        | _ => rfl
      rw [stepped]
      exact inv.served calm silent
    · obtain ⟨d,same⟩ := not_forall_not.mp silent
      subst same
      have unmarked : s.mark (.service (.bus (.publish d))) = [] := rfl
      rw [unmarked,List.append_nil]
      exact inv

/-! ### Runs -/

theorem inv_start (rest : AtRest s) : Inv [] s := by
  refine ⟨?_,?_,fun exchange => ?_,(fun _ impossible => by cases impossible),fun exchange token _ => ?_,fun exchange token => ?_⟩
  · rw [rest.listener]; exact trivial
  · rw [rest.listener]; exact trivial
  · rw [rest.pipelines exchange]
    exact ⟨⟨[],(fun _ impossible => by cases impossible),.inl rfl⟩,fun impossible => absurd rfl impossible⟩
  · rw [rest.pipelines exchange]
    exact .nil _ _ _
  · have none : pending s.service = [] := by rw [pending,rest.listener]; rfl
    rw [none]
    exact .nil _ _ _

/-- Over every interleaving of the pipelines, the keys and the service in which the subscription
    holds and no pipeline is cut between a message and its key: the key of a token has the last
    record that was published for it once its pipeline is between two records, unless the key has
    lapsed, and the normalizer has it once no message of the token waits, unless it has purged. -/
theorem views_agree (s : LiveData) (rest : AtRest s) (actions : List Action) (calm : Each step Calm s actions)
    (exchange token : String) (d : NormalizedFundingData) (last : lastOf keyOf (log (s.marks actions)) (exchange,token) = some d) :
    (outstanding ((s.run actions).pipelines exchange) = [] →
      (s.run actions).latest.get? (TokenKeys.latestKey exchange token) = some d ∨
        (s.run actions).latest.get? (TokenKeys.latestKey exchange token) = none ∧
          .lapsed (TokenKeys.latestKey exchange token) ∈ s.marks actions) ∧
    ((∀ p ∈ pending (s.run actions).service, keyOf p ≠ (exchange,token)) →
      ((s.run actions).service.normalizer.getSnapshot exchange token).map ExchangeSnapshot.data = some d ∨
        ((s.run actions).service.normalizer.getSnapshot exchange token).map ExchangeSnapshot.data = none ∧
          .purged ∈ s.marks actions) := by
  have inv : Inv (s.marks actions) (s.run actions) :=
    @outputs_kept_of_each _ _ step s Calm _ mark Inv (fun _ _ _ holds meets => step_inv holds meets) (inv_start rest) _ calm
  obtain ⟨logged,same⟩ := lastOf_mem last
  have noColon : ':' ∉ exchange.toList := by
    have named : d.exchange = exchange := congrArg Prod.fst same
    exact named ▸ inv.plain d logged
  refine ⟨fun whole => ?_,fun taken => (inv.normalizer exchange token).settled taken last⟩
  refine (inv.cache exchange token noColon).settled (fun v member => ?_) last
  rw [whole] at member
  cases member

/-- A poll of one exchange, stored while its key is set. -/
def onePoll : List Action :=
  [.batch ⟨"aster",[UntypedService.rateRecord "aster" 20],by simp [UntypedService.rateRecord],by decide⟩,.execute "aster",
    .service (.bus (.take (readAt 1))),.execute "aster",.service (.bus .advance)]
def idle : LiveData := ⟨fun _ => [],.empty,⟨.listening [],.init 120,0⟩⟩

theorem onePoll_agrees : AtRest idle ∧ Each step Calm idle onePoll ∧
    lastOf keyOf (log (idle.marks onePoll)) ("aster","BTC") = some (UntypedService.rateRecord "aster" 20) ∧
    outstanding ((idle.run onePoll).pipelines "aster") = [] ∧
    ((idle.run onePoll).latest.get? (TokenKeys.latestKey "aster" "BTC") = some (UntypedService.rateRecord "aster" 20) ∨
      (idle.run onePoll).latest.get? (TokenKeys.latestKey "aster" "BTC") = none ∧
        .lapsed (TokenKeys.latestKey "aster" "BTC") ∈ idle.marks onePoll) := by
  have rest : AtRest idle := ⟨fun _ => rfl,rfl⟩
  have calm : Each step Calm idle onePoll := by
    simp only [onePoll,each_cons,Calm,true_and]
    exact ⟨⟨(fun impossible => by cases impossible),fun impossible => by cases impossible⟩,
      ⟨(fun impossible => by cases impossible),fun impossible => by cases impossible⟩,each_nil⟩
  have last : lastOf keyOf (log (idle.marks onePoll)) ("aster","BTC") = some (UntypedService.rateRecord "aster" 20) := by rfl
  have whole : outstanding ((idle.run onePoll).pipelines "aster") = [] := by rfl
  exact ⟨rest,calm,last,whole,(views_agree idle rest onePoll calm "aster" "BTC" _ last).1 whole⟩

end LiveData
end FundingRadar
