import FundingRadar.HistoryCoverage

/-!
`BackfillService.backfill`: it stores what a collector yields and then records a guard,
which keeps the next start from repeating the backfill for 23 hours. It sees the records
only, so it cannot tell a history with holes from a complete one.
-/
namespace FundingRadar
namespace Backfill

/-- The collectors, with what their servers answer. -/
inductive Collector
  | hyperliquid (c : HyperliquidCollector) (warmUp : Option Json) (server : Scalar → ℕ → ℤ → ℤ → Option Json)
  | aster (c : AsterCollector) (info : Option Json) (server : String → ℕ → ℤ → ℤ → Option Json)
  | extended (c : ExtendedCollector) (info : Option Json) (server : String → ℕ → ℤ → ℤ → Option Json)
  | pacifica

/-- `exchange_slug`. -/
def Collector.slug : Collector → String
  | .hyperliquid _ _ _ => "hyperliquid"
  | .aster _ _ _ => "aster"
  | .extended _ _ _ => "extended"
  | .pacifica => "pacifica"

/-- A record whose names are strings. -/
def scalarNames (r : NormalizedFundingData) : NormalizedFundingData Scalar :=
  { exchange := r.exchange, token := .str r.token, symbol := .str r.symbol, fundingRate := r.fundingRate
    fundingRate8h := r.fundingRate8h, fundingApr := r.fundingApr, fundingIntervalHours := r.fundingIntervalHours
    nextFundingTime := r.nextFundingTime, predictedRate := r.predictedRate, markPrice := r.markPrice
    indexPrice := r.indexPrice, openInterestUsd := r.openInterestUsd, volume24hUsd := r.volume24hUsd
    priceSpreadPct := r.priceSpreadPct, makerFee := r.makerFee, takerFee := r.takerFee, timestamp := r.timestamp
    isLive := r.isLive }

/-- `_fetch_history_range` of a collector whose clock reads `nowMs`, as far as `requests`
    requests for every symbol go. -/
def Collector.harvest (py : Numerals) (nowMs : ℤ) (requests : ℕ) (collector : Collector) (startMs endMs : ℤ) :
    Harvest (NormalizedFundingData Scalar) :=
  match collector with
  | .hyperliquid c warmUp server => c.harvest py warmUp server startMs endMs nowMs requests
  | .aster c info server => (c.harvest py info server startMs endMs nowMs requests).map scalarNames
  | .extended c info server => (c.harvest py info server startMs endMs nowMs requests).map scalarNames
  | .pacifica => ⟨[],.finished⟩

/-- The symbols whose history there is, where a list of them has been received. -/
def Collector.listed : Collector → Option (List Scalar)
  | .hyperliquid c warmUp _ => c.historySymbols warmUp
  | .aster c info _ => c.historySymbols info
  | .extended c info _ => c.historySymbols info
  | .pacifica => some []
/-- The symbols that the run goes through. -/
def Collector.loaded (py : Numerals) (nowMs : ℤ) : Collector → List Scalar
  | .hyperliquid c warmUp _ => c.loaded py nowMs warmUp
  | .aster c info _ => c.loaded info
  | .extended c info _ => c.loaded info
  | .pacifica => []

/-- A run that has ended covers what it has loaded and pursued. -/
theorem Collector.harvest_covers {py : Numerals} {nowMs : ℤ} {requests : ℕ} {collector : Collector} {startMs endMs : ℤ}
    (finished : (collector.harvest py nowMs requests startMs endMs).ending = .finished) :
    (collector.harvest py nowMs requests startMs endMs).CoversLoaded (collector.loaded py nowMs) startMs (min endMs nowMs) := by
  cases collector with
  | hyperliquid c warmUp server => exact HyperliquidCollector.harvest_covers finished
  | aster c info server => exact (AsterCollector.harvest_covers finished).map scalarNames
  | extended c info server => exact (ExtendedCollector.harvest_covers finished).map scalarNames
  | pacifica =>
    intro k
    constructor
    · intro covered
      refine ⟨fun some => ?_,fun q none => absurd none List.not_mem_nil⟩
      obtain ⟨q,none,-⟩ := covered startMs (le_refl _) some
      cases none
    · rintro ⟨inside,-⟩ t low high
      exact absurd (inside (low.trans high)).1 List.not_mem_nil

/-- What ends a backfill early. -/
inductive BackfillError
  | py (e : PyError)
  | database
  | redis
deriving DecidableEq

/-- How the lookup of the exchange goes: cached, selected, inserted, or an exception. -/
inductive ExchangeReply
  | cached (id : ℤ)
  | selected (id : ℤ)
  | inserted (id : ℤ)
  | raised

/-- How the lookup of a token goes. After an insert that fails the token is selected again. -/
inductive TokenReply
  | cached (id : ℤ)
  | selected (id : ℤ)
  | inserted (id : ℤ)
  | conflict (selected : Option ℤ)
  | raised
deriving DecidableEq

/-- `_ensure_exchange`. -/
def ensureExchange : ExchangeReply → Except BackfillError (Option ℤ)
  | .cached id => .ok (some id)
  | .selected id => .ok (some id)
  | .inserted id => .ok (some id)
  | .raised => .error .database
/-- `_ensure_token`. -/
def ensureToken : TokenReply → Except BackfillError (Option ℤ)
  | .cached id => .ok (some id)
  | .selected id => .ok (some id)
  | .inserted id => .ok (some id)
  | .conflict selected => .ok selected
  | .raised => .error .database

/-- What the database replies: for the exchange, for the token of every record, and to
    every batch, whose row count is missing where the statement raises. -/
structure Replies where
  exchange : ExchangeReply
  token : ℕ → TokenReply
  upsert : ℕ → Option ℕ

structure Row where
  time : ℤ
  exchangeId : ℤ
  tokenId : ℤ
  fundingRate : ℚ
  fundingRate8h : ℚ
  fundingApr : ℚ
  markPrice : Option ℚ
  indexPrice : Option ℚ
  openInterestUsd : Option ℚ
  volume24hUsd : Option ℚ
  priceSpreadPct : Option ℚ
deriving DecidableEq

/-- The row of a record; a price of zero is none. -/
def rowOf (exchangeId tokenId : ℤ) (r : NormalizedFundingData Scalar) : Row where
  time := r.timestamp
  exchangeId := exchangeId
  tokenId := tokenId
  fundingRate := r.fundingRate
  fundingRate8h := r.fundingRate8h
  fundingApr := r.fundingApr
  markPrice := if r.markPrice = 0 then none else some r.markPrice
  indexPrice := if r.indexPrice = 0 then none else some r.indexPrice
  openInterestUsd := none
  volume24hUsd := none
  priceSpreadPct := none

/-- The milliseconds that `datetime.fromtimestamp` accepts, from the year 1 to 9999. -/
def inRange (ms : ℤ) : Prop := -62135596800000 ≤ ms ∧ ms < 253402300800000
instance (ms : ℤ) : Decidable (inRange ms) := inferInstanceAs (Decidable (_ ∧ _))

/-- `_BATCH_SIZE`, and `_GUARD_SECONDS`. -/
def batchSize : ℕ := 500
def guardSeconds : ℚ := 23 * 3600

/-- The records seen, the batch, the batches that `_upsert_batch` was given, and the rows
    inserted. -/
structure Progress where
  seen : ℕ
  batch : List Row
  passed : List (List Row)
  inserted : ℕ

variable (replies : Replies) (exchangeId : ℤ)

/-- `_upsert_batch`, and the batch cleared. -/
def upsertBatch (st : Progress) : Progress × Option BackfillError :=
  match replies.upsert st.passed.length with
  | none => ({ st with passed := st.passed ++ [st.batch] },some .database)
  | some n => ({ st with batch := [], passed := st.passed ++ [st.batch], inserted := st.inserted + n },none)

/-- The body of the loop over the records. -/
def takeRecord (st : Progress) (r : NormalizedFundingData Scalar) : Progress × Option BackfillError :=
  match r.token.asStr with
  | .error e => (st,some (.py e))
  | .ok _ =>
    match ensureToken (replies.token st.seen) with
    | .error e => (st,some e)
    | .ok none => ({ st with seen := st.seen + 1 },none)
    | .ok (some tokenId) =>
      if inRange r.timestamp then
        let added := { st with seen := st.seen + 1, batch := st.batch ++ [rowOf exchangeId tokenId r] }
        if added.batch.length ≥ batchSize then upsertBatch replies added else (added,none)
      else (st,some (.py .valueError))

/-- The last batch, if it is not empty. -/
def finish (st : Progress) : Progress × Option BackfillError := if st.batch = [] then (st,none) else upsertBatch replies st

/-- Whether the guard was recorded, the batches passed on, and what was returned or raised;
    nothing yet where the collector is still fetching. -/
structure Outcome where
  recorded : Bool
  passed : List (List Row)
  returned : Option (Except BackfillError ℕ)

/-- `backfill:last:{slug}:{days}d`. -/
def guardKey (slug : String) (days : ℤ) : String := "backfill:last:" ++ slug ++ ":" ++ toString days ++ "d"
/-- What Redis answers about a guard: nothing or an empty text, a text that `float` reads or one
    that it does not read, or an exception. -/
inductive GuardReply
  | absent
  | number (last : ℚ)
  | unreadable
  | raised
deriving DecidableEq

def GuardReply.last : GuardReply → Option ℚ
  | .number last => some last
  | _ => none
/-- What the reading of the guard raises. -/
def GuardReply.error : GuardReply → Option BackfillError
  | .unreadable => some (.py .valueError)
  | .raised => some .redis
  | _ => none

/-- The guards in Redis: what it answers to `get`, and whether it executes a `set`. -/
structure Guards where
  get : String → GuardReply
  set : String → Bool

/-- The guard is younger than 23 hours. -/
def Guarded (guards : Guards) (slug : String) (days : ℤ) (now : ℚ) : Prop :=
  ∃ last ∈ (guards.get (guardKey slug days)).last, now - last < guardSeconds
instance (guards : Guards) (slug : String) (days : ℤ) (now : ℚ) : Decidable (Guarded guards slug days now) :=
  inferInstanceAs (Decidable (∃ last ∈ (guards.get (guardKey slug days)).last, now - last < guardSeconds))

/-- `int(time.time() * 1000)`, and the start of the range. -/
def endMs (now : ℚ) : ℤ := ⌊now * 1000⌋
def startMs (now : ℚ) (days : ℤ) : ℤ := endMs now - days * 24 * 3600000

/-- The loop over the records of a run of the generator, and what follows it up to the guard. -/
def store (accepted : Bool) (h : Harvest (NormalizedFundingData Scalar)) : Outcome :=
  match forEach (takeRecord replies exchangeId) ⟨0,[],[],0⟩ h.yielded with
  | (st,some e) => ⟨false,st.passed,some (.error e)⟩
  | (st,none) =>
    match h.ending with
    | .running => ⟨false,st.passed,none⟩
    | .raised e => ⟨false,st.passed,some (.error (.py e))⟩
    | .finished =>
      match finish replies st with
      | (last,some e) => ⟨false,last.passed,some (.error e)⟩
      | (last,none) =>
        if accepted then ⟨true,last.passed,some (.ok last.inserted)⟩ else ⟨false,last.passed,some (.error .redis)⟩

/-- `backfill`. -/
def backfill (guards : Guards) (slug : String) (days : ℤ) (now : ℚ)
    (history : ℤ → ℤ → Harvest (NormalizedFundingData Scalar)) : Outcome :=
  match (guards.get (guardKey slug days)).error with
  | some e => ⟨false,[],some (.error e)⟩
  | none =>
    if Guarded guards slug days now then ⟨false,[],some (.ok 0)⟩
    else if ¬ inRange (startMs now days) then ⟨false,[],some (.error (.py .valueError))⟩
    else
      match ensureExchange replies.exchange with
      | .error e => ⟨false,[],some (.error e)⟩
      | .ok none => ⟨false,[],some (.ok 0)⟩
      | .ok (some id) => store replies id (guards.set (guardKey slug days)) (history (startMs now days) (endMs now))

/-! ### What the guard stands for -/

/-- It is known which symbols are listed, successful requests cover the range for each of them,
    no request failed, and the rows of all well-formed records, in order, were passed on. -/
structure Complete (listed : Option (List Scalar)) (first last : ℤ) (h : Harvest (NormalizedFundingData Scalar))
    (outcome : Outcome) : Prop where
  known : listed ≠ none
  covered : ∀ symbols ∈ listed, ∀ k ∈ symbols, ∀ t, first ≤ t → t ≤ last →
    ∃ q ∈ h.requests, q.symbol = some k ∧ q.response ≠ none ∧ q.Covers t
  succeeded : ∀ q ∈ h.requests, q.response ≠ none
  passed : ∃ id, List.Forall₂ (fun r row => ∃ tokenId, row = rowOf id tokenId r) h.wellFormed outcome.passed.flatten

/-- What has to go well in a run of a collector and for its records: the list of symbols can be
    read, with all that it lists, and the range is longer than a millisecond; no request fails;
    for a listed symbol every response leaves nothing of the range or is followed by a request
    for what it leaves, which is longer than a millisecond; on no page an exception loses a
    record, and every token is found. -/
structure Clean (listed : Option (List Scalar)) (loaded : List Scalar) (first last : ℤ)
    (h : Harvest (NormalizedFundingData Scalar)) : Prop where
  known : listed ≠ none
  loaded : ∀ symbols ∈ listed, ∀ k ∈ symbols, first ≤ last → k ∈ loaded ∧ first ≠ last
  succeeded : ∀ q ∈ h.requests, q.response ≠ none
  pursued : ∀ symbols ∈ listed, ∀ k ∈ symbols, ∀ q ∈ h.requests, q.symbol = some k → q.Pursued
  readable : ∀ q ∈ h.requests, NoLoss q.elements
  tokens : ∀ i < h.yielded.length, replies.token i ≠ .conflict none

/-- The rows of the records from the `i`th on whose tokens are found. -/
def rowsOf : ℕ → List (NormalizedFundingData Scalar) → List Row
  | _,[] => []
  | i,r :: rest =>
    match ensureToken (replies.token i) with
    | .ok (some tokenId) => rowOf exchangeId tokenId r :: rowsOf (i + 1) rest
    | .ok none => rowsOf (i + 1) rest
    | .error _ => rowsOf (i + 1) rest

/-- The first exception does not come before the end: every name is a string, no lookup
    raises, every row has a time that can be stored, and no batch is refused. -/
structure Stored (i : ℕ) (records : List (NormalizedFundingData Scalar)) : Prop where
  named : ∀ r ∈ records, ∃ s, r.token = .str s
  looked : ∀ j < records.length, replies.token (i + j) ≠ .raised
  dated : ∀ j r, records[j]? = some r → replies.token (i + j) ≠ .conflict none → inRange r.timestamp

/-- The run gets to the guard. -/
structure ReachesGuard (guards : Guards) (slug : String) (days : ℤ) (now : ℚ)
    (h : Harvest (NormalizedFundingData Scalar)) : Prop where
  read : (guards.get (guardKey slug days)).error = none
  unguarded : ¬ Guarded guards slug days now
  dated : inRange (startMs now days)
  exchange : replies.exchange ≠ .raised
  finished : h.ending = .finished
  stored : Stored replies 0 h.yielded
  upserted : ∀ i, i * batchSize < (rowsOf replies 0 0 h.yielded).length → replies.upsert i ≠ none
  accepted : guards.set (guardKey slug days) = true

/-! ### The loop over the records -/

/-- What the loop has done when it has taken some rows. -/
structure Holds (st : Progress) (rows : List Row) : Prop where
  taken : st.passed.flatten ++ st.batch = rows
  count : st.passed.length * batchSize + st.batch.length = rows.length
  room : st.batch.length < batchSize
  accepted : ∀ i < st.passed.length, replies.upsert i ≠ none

variable {replies exchangeId}

theorem rowsOf_cons (i : ℕ) (r : NormalizedFundingData Scalar) (rest : List (NormalizedFundingData Scalar)) :
    rowsOf replies exchangeId i (r :: rest) = rowsOf replies exchangeId i [r] ++ rowsOf replies exchangeId (i + 1) rest := by
  simp only [rowsOf]
  cases ensureToken (replies.token i) with
  | error e => rfl
  | ok tokenId =>
    cases tokenId with
    | none => rfl
    | some id => rfl

theorem rowsOf_length_eq (id id' : ℤ) (i : ℕ) (records : List (NormalizedFundingData Scalar)) :
    (rowsOf replies id i records).length = (rowsOf replies id' i records).length := by
  induction records generalizing i with
  | nil => rfl
  | cons r rest ih =>
    simp only [rowsOf]
    cases ensureToken (replies.token i) with
    | error e => exact ih (i + 1)
    | ok tokenId =>
      cases tokenId with
      | none => exact ih (i + 1)
      | some t => simp only [List.length_cons,ih (i + 1)]

theorem stored_cons (i : ℕ) (r : NormalizedFundingData Scalar) (rest : List (NormalizedFundingData Scalar)) :
    Stored replies i (r :: rest) ↔ Stored replies i [r] ∧ Stored replies (i + 1) rest := by
  have shift : ∀ j, i + 1 + j = i + (j + 1) := fun j => by omega
  constructor
  · rintro ⟨named,looked,dated⟩
    refine ⟨⟨?_,?_,?_⟩,⟨?_,?_,?_⟩⟩
    · intro x member
      exact named x (by simpa using .inl (List.mem_singleton.mp member))
    · intro j lt
      exact looked j (by simp only [List.length_cons,List.length_nil] at lt ⊢; omega)
    · intro j x found known
      cases j with
      | zero => exact dated 0 x (by simpa using found) known
      | succ j => simp at found
    · exact fun x member => named x (List.mem_cons_of_mem _ member)
    · intro j lt
      rw [shift]
      exact looked (j + 1) (by rw [List.length_cons]; omega)
    · intro j x found known
      rw [shift] at known
      exact dated (j + 1) x (by simpa using found) known
  · rintro ⟨⟨named,looked,dated⟩,⟨namedRest,lookedRest,datedRest⟩⟩
    refine ⟨?_,?_,?_⟩
    · intro x member
      rcases List.mem_cons.mp member with rfl | later
      · exact named x (List.mem_singleton_self _)
      · exact namedRest x later
    · intro j lt
      cases j with
      | zero => exact looked 0 (by simp)
      | succ j =>
        rw [← shift]
        exact lookedRest j (by rw [List.length_cons] at lt; omega)
    · intro j x found known
      cases j with
      | zero => exact dated 0 x (by simpa using found) known
      | succ j =>
        rw [← shift] at known
        exact datedRest j x (by simpa using found) known

/-- One batch: what it stores, and when it is refused. -/
theorem upsertBatch_spec {st : Progress} {rows : List Row} (taken : st.passed.flatten ++ st.batch = rows)
    (count : st.passed.length * batchSize + st.batch.length = rows.length) (full : st.batch.length = batchSize)
    (accepted : ∀ i < st.passed.length, replies.upsert i ≠ none) :
    ((upsertBatch replies st).2 = none ↔ replies.upsert st.passed.length ≠ none) ∧
    ((upsertBatch replies st).2 = none →
      (upsertBatch replies st).1.seen = st.seen ∧ Holds replies (upsertBatch replies st).1 rows) := by
  unfold upsertBatch
  cases reply : replies.upsert st.passed.length with
  | none => simp
  | some n =>
    refine ⟨by simp,fun _ => ⟨rfl,?_,?_,?_,?_⟩⟩
    · show (st.passed ++ [st.batch]).flatten ++ [] = rows
      rw [List.append_nil,List.flatten_append,List.flatten_singleton]
      exact taken
    · show (st.passed ++ [st.batch]).length * batchSize + 0 = rows.length
      rw [List.length_append,List.length_singleton,← count,full]
      ring
    · show 0 < batchSize
      decide
    · intro i lt
      change i < (st.passed ++ [st.batch]).length at lt
      rw [List.length_append,List.length_singleton] at lt
      by_cases last : i = st.passed.length
      · rw [last,reply]
        exact Option.some_ne_none n
      · exact accepted i (by omega)

theorem stored_singleton (i : ℕ) (r : NormalizedFundingData Scalar) :
    Stored replies i [r] ↔ (∃ s, r.token = .str s) ∧ replies.token i ≠ .raised ∧
      (replies.token i ≠ .conflict none → inRange r.timestamp) := by
  constructor
  · rintro ⟨named,looked,dated⟩
    exact ⟨named r (List.mem_singleton_self r),looked 0 (by simp),dated 0 r rfl⟩
  · rintro ⟨named,looked,dated⟩
    refine ⟨?_,?_,?_⟩
    · intro x member
      rw [List.mem_singleton.mp member]
      exact named
    · intro j lt
      rw [Nat.lt_one_iff.mp lt]
      exact looked
    · intro j x found known
      cases j with
      | zero =>
        rw [← Option.some.inj found]
        exact dated known
      | succ j => simp at found

/-- The batches that `n` rows fill are accepted. -/
def Flushed (replies : Replies) (n : ℕ) : Prop := ∀ i, (i + 1) * batchSize ≤ n → replies.upsert i ≠ none

theorem Flushed.mono {m n : ℕ} (flushed : Flushed replies n) (le : m ≤ n) : Flushed replies m :=
  fun i full => flushed i (full.trans le)

/-- Short of a full batch, everything that had to be accepted has been. -/
theorem Holds.flushed {st : Progress} {rows : List Row} (holds : Holds replies st rows) : Flushed replies rows.length := by
  intro i full
  refine holds.accepted i ?_
  have count := holds.count
  have room := holds.room
  by_contra le
  have : st.passed.length * batchSize ≤ i * batchSize := Nat.mul_le_mul_right _ (Nat.le_of_not_lt le)
  rw [Nat.add_mul,Nat.one_mul] at full
  omega

theorem ensureToken_error {reply : TokenReply} {e : BackfillError} (looked : ensureToken reply = .error e) : reply = .raised := by
  cases reply with
  | cached id => cases looked
  | selected id => cases looked
  | inserted id => cases looked
  | conflict found => cases looked
  | raised => rfl

theorem ensureToken_none_iff {reply : TokenReply} : ensureToken reply = .ok none ↔ reply = .conflict none := by
  cases reply with
  | cached id => simp [ensureToken]
  | selected id => simp [ensureToken]
  | inserted id => simp [ensureToken]
  | conflict found => simp [ensureToken]
  | raised => simp [ensureToken]

/-- One row: a batch that is full goes to the database. -/
theorem addRow_spec {st : Progress} {rows : List Row} (holds : Holds replies st rows) {added : Progress} (row : Row)
    (is : added = ⟨st.seen + 1,st.batch ++ [row],st.passed,st.inserted⟩) :
    ((if added.batch.length ≥ batchSize then upsertBatch replies added else (added,none)).2 = none ↔
      Flushed replies (rows ++ [row]).length) ∧
    ((if added.batch.length ≥ batchSize then upsertBatch replies added else (added,none)).2 = none →
      (if added.batch.length ≥ batchSize then upsertBatch replies added else (added,none)).1.seen = st.seen + 1 ∧
      Holds replies (if added.batch.length ≥ batchSize then upsertBatch replies added else (added,none)).1 (rows ++ [row])) := by
  have seen : added.seen = st.seen + 1 := by rw [is]
  have passed : added.passed = st.passed := by rw [is]
  have batch : added.batch.length = st.batch.length + 1 := by rw [is,List.length_append,List.length_singleton]
  have taken : added.passed.flatten ++ added.batch = rows ++ [row] := by rw [is,← holds.taken,List.append_assoc]
  have count : added.passed.length * batchSize + added.batch.length = (rows ++ [row]).length := by
    have before := holds.count
    rw [← holds.taken,List.length_append] at before
    rw [← taken,List.length_append,passed,Nat.add_right_cancel before]
  have accepted : ∀ i < added.passed.length, replies.upsert i ≠ none := by
    rw [passed]
    exact holds.accepted
  split
  · next full =>
    have room := holds.room
    have exact : added.batch.length = batchSize := by omega
    obtain ⟨accepts,holdsAfter⟩ := upsertBatch_spec taken count exact accepted
    rw [seen] at holdsAfter
    refine ⟨accepts.trans ?_,holdsAfter⟩
    rw [← count,exact,← Nat.succ_mul]
    constructor
    · intro last i filled
      rcases Nat.lt_or_eq_of_le (Nat.le_of_succ_le_succ (Nat.le_of_mul_le_mul_right filled (by decide))) with lt | eq
      · exact accepted i lt
      · rw [eq]
        exact last
    · intro flushed
      exact flushed added.passed.length (Nat.le_refl _)
  · next short =>
    have holdsAfter : Holds replies added (rows ++ [row]) := ⟨taken,count,Nat.lt_of_not_le short,accepted⟩
    exact ⟨iff_of_true rfl holdsAfter.flushed,fun _ => ⟨seen,holdsAfter⟩⟩

/-- One record: when nothing is raised, and what is held then. -/
theorem takeRecord_spec {st : Progress} {rows : List Row} (holds : Holds replies st rows)
    (r : NormalizedFundingData Scalar) :
    ((takeRecord replies exchangeId st r).2 = none ↔
      Stored replies st.seen [r] ∧ Flushed replies (rows ++ rowsOf replies exchangeId st.seen [r]).length) ∧
    ((takeRecord replies exchangeId st r).2 = none → (takeRecord replies exchangeId st r).1.seen = st.seen + 1 ∧
      Holds replies (takeRecord replies exchangeId st r).1 (rows ++ rowsOf replies exchangeId st.seen [r])) := by
  rw [stored_singleton]
  unfold takeRecord
  cases token : r.token with
  | null => simp [Scalar.asStr]
  | num q => simp [Scalar.asStr]
  | str name =>
    simp only [Scalar.asStr,rowsOf]
    cases looked : ensureToken (replies.token st.seen) with
    | error e => simp [ensureToken_error looked]
    | ok found =>
      have noRaise : replies.token st.seen ≠ .raised := by
        intro raised
        rw [raised] at looked
        cases looked
      cases found with
      | none =>
        have conflict := ensureToken_none_iff.mp looked
        dsimp only
        rw [List.append_nil]
        refine ⟨iff_of_true rfl ⟨⟨⟨name,rfl⟩,noRaise,fun known => absurd conflict known⟩,holds.flushed⟩,fun _ => ⟨rfl,?_⟩⟩
        exact ⟨holds.taken,holds.count,holds.room,holds.accepted⟩
      | some tokenId =>
        have known : replies.token st.seen ≠ .conflict none := by
          intro conflict
          rw [ensureToken_none_iff.mpr conflict] at looked
          cases looked
        by_cases dated : inRange r.timestamp
        · have storable : (∃ s, Scalar.str name = .str s) ∧ replies.token st.seen ≠ .raised ∧
              (replies.token st.seen ≠ .conflict none → inRange r.timestamp) := ⟨⟨name,rfl⟩,noRaise,fun _ => dated⟩
          dsimp only
          rw [if_pos dated]
          obtain ⟨accepts,holdsAfter⟩ := addRow_spec holds (rowOf exchangeId tokenId r) rfl
          exact ⟨accepts.trans (and_iff_right storable).symm,holdsAfter⟩
        · dsimp only
          rw [if_neg dated]
          simp [known,dated]

/-- A run over records, from any state of the loop. -/
theorem takeRecords_spec (records : List (NormalizedFundingData Scalar)) {st : Progress} {rows : List Row}
    (holds : Holds replies st rows) :
    ((forEach (takeRecord replies exchangeId) st records).2 = none ↔
      Stored replies st.seen records ∧ Flushed replies (rows ++ rowsOf replies exchangeId st.seen records).length) ∧
    ((forEach (takeRecord replies exchangeId) st records).2 = none →
      Holds replies (forEach (takeRecord replies exchangeId) st records).1 (rows ++ rowsOf replies exchangeId st.seen records)) := by
  induction records generalizing st rows with
  | nil =>
    rw [rowsOf,List.append_nil]
    refine ⟨iff_of_true rfl ⟨⟨?_,?_,?_⟩,holds.flushed⟩,fun _ => holds⟩
    · intro r member
      cases member
    · intro j lt
      cases lt
    · intro j r found
      cases found
  | cons r rest ih =>
    obtain ⟨one,after⟩ := @takeRecord_spec replies exchangeId st rows holds r
    rw [stored_cons,rowsOf_cons,← List.append_assoc,forEach]
    cases taken : takeRecord replies exchangeId st r with
    | mk next raised =>
      rw [taken] at one after
      cases raised with
      | some e =>
        dsimp only at one ⊢
        refine ⟨iff_of_false (Option.some_ne_none e) ?_,fun impossible => absurd impossible (Option.some_ne_none e)⟩
        rintro ⟨⟨stored,-⟩,flushed⟩
        have short := flushed.mono (m := (rows ++ rowsOf replies exchangeId st.seen [r]).length)
          (List.prefix_append _ _).length_le
        exact absurd (one.mpr ⟨stored,short⟩) (Option.some_ne_none e)
      | none =>
        obtain ⟨seen,holdsNext⟩ := after rfl
        obtain ⟨storedFirst,-⟩ := one.mp rfl
        obtain ⟨later,holdsLast⟩ := ih holdsNext
        dsimp only at seen later holdsLast ⊢
        rw [seen] at later holdsLast
        refine ⟨?_,holdsLast⟩
        rw [later]
        exact ⟨fun both => ⟨⟨storedFirst,both.1⟩,both.2⟩,fun both => ⟨both.1.2,both.2⟩⟩

/-- The last batch: when nothing is refused, and that every row is passed on then. -/
theorem finish_spec {st : Progress} {rows : List Row} (holds : Holds replies st rows) :
    ((finish replies st).2 = none ↔ ∀ i, i * batchSize < rows.length → replies.upsert i ≠ none) ∧
    ((finish replies st).2 = none → (finish replies st).1.passed.flatten = rows) := by
  have count := holds.count
  have room := holds.room
  have earlier : ∀ i, i * batchSize < rows.length → i ≠ st.passed.length → replies.upsert i ≠ none := by
    intro i lt other
    refine holds.accepted i ?_
    by_contra le
    have above : (st.passed.length + 1) * batchSize ≤ i * batchSize := Nat.mul_le_mul_right _ (by omega)
    rw [Nat.add_mul,Nat.one_mul] at above
    omega
  unfold finish
  split
  · rename_i empty
    rw [empty,List.length_nil,Nat.add_zero] at count
    refine ⟨iff_of_true rfl ?_,fun _ => ?_⟩
    · intro i lt
      refine earlier i lt ?_
      rintro rfl
      omega
    · have taken := holds.taken
      rwa [empty,List.append_nil] at taken
  · rename_i rest
    have some_left : 0 < st.batch.length := List.length_pos_iff.mpr rest
    unfold upsertBatch
    cases reply : replies.upsert st.passed.length with
    | none =>
      refine ⟨iff_of_false (Option.some_ne_none _) ?_,fun impossible => absurd impossible (Option.some_ne_none _)⟩
      intro accepted
      exact accepted st.passed.length (by omega) reply
    | some n =>
      refine ⟨iff_of_true rfl ?_,fun _ => ?_⟩
      · intro i lt
        by_cases last : i = st.passed.length
        · rw [last,reply]
          exact Option.some_ne_none n
        · exact earlier i lt last
      · show (st.passed ++ [st.batch]).flatten = rows
        rw [List.flatten_append,List.flatten_singleton]
        exact holds.taken

/-- The loop starts with nothing. -/
theorem holds_nothing : Holds replies ⟨0,[],[],0⟩ [] :=
  ⟨rfl,rfl,by decide,fun _ impossible => absurd impossible (Nat.not_lt_zero _)⟩

/-- The guard is recorded when nothing is raised up to the end, and then every row has been
    passed on. -/
theorem store_recorded (accepted : Bool) (h : Harvest (NormalizedFundingData Scalar)) :
    ((store replies exchangeId accepted h).recorded = true ↔ accepted = true ∧ h.ending = .finished ∧
      Stored replies 0 h.yielded ∧
      ∀ i, i * batchSize < (rowsOf replies exchangeId 0 h.yielded).length → replies.upsert i ≠ none) ∧
    ((store replies exchangeId accepted h).recorded = true →
      (store replies exchangeId accepted h).passed.flatten = rowsOf replies exchangeId 0 h.yielded) := by
  obtain ⟨taken,holds⟩ := @takeRecords_spec replies exchangeId h.yielded _ _ holds_nothing
  rw [List.nil_append] at taken holds
  unfold store
  cases run : forEach (takeRecord replies exchangeId) ⟨0,[],[],0⟩ h.yielded with
  | mk st raised =>
    rw [run] at taken holds
    dsimp only at taken holds
    have flushed : (∀ i, i * batchSize < (rowsOf replies exchangeId 0 h.yielded).length → replies.upsert i ≠ none) →
        Flushed replies (rowsOf replies exchangeId 0 h.yielded).length := by
      intro accepted i full
      refine accepted i (Nat.lt_of_lt_of_le ?_ full)
      rw [Nat.add_mul,Nat.one_mul]
      exact Nat.lt_add_of_pos_right (by decide)
    cases raised with
    | some e =>
      refine ⟨iff_of_false Bool.false_ne_true ?_,fun impossible => absurd impossible Bool.false_ne_true⟩
      rintro ⟨-,-,stored,upserted⟩
      exact absurd (taken.mpr ⟨stored,flushed upserted⟩) (Option.some_ne_none e)
    | none =>
      obtain ⟨stored,-⟩ := taken.mp rfl
      dsimp only
      cases ending : h.ending with
      | running =>
        refine ⟨iff_of_false Bool.false_ne_true ?_,fun impossible => absurd impossible Bool.false_ne_true⟩
        rintro ⟨-,impossible,-⟩
        cases impossible
      | raised e =>
        refine ⟨iff_of_false Bool.false_ne_true ?_,fun impossible => absurd impossible Bool.false_ne_true⟩
        rintro ⟨-,impossible,-⟩
        cases impossible
      | finished =>
        obtain ⟨upserted,passed⟩ := finish_spec (holds rfl)
        dsimp only
        cases last : finish replies st with
        | mk final raised =>
          rw [last] at upserted passed
          dsimp only at upserted passed
          cases raised with
          | some e =>
            refine ⟨iff_of_false Bool.false_ne_true ?_,fun impossible => absurd impossible Bool.false_ne_true⟩
            rintro ⟨-,-,-,all⟩
            exact absurd (upserted.mpr all) (Option.some_ne_none e)
          | none =>
            cases accepted with
            | false => simp
            | true => exact ⟨iff_of_true rfl ⟨rfl,rfl,stored,upserted.mp rfl⟩,fun _ => passed rfl⟩

theorem ensureExchange_ok {reply : ExchangeReply} : (∃ id, ensureExchange reply = .ok (some id)) ↔ reply ≠ .raised := by
  cases reply with
  | cached id => exact iff_of_true ⟨id,rfl⟩ (by rintro ⟨⟩)
  | selected id => exact iff_of_true ⟨id,rfl⟩ (by rintro ⟨⟩)
  | inserted id => exact iff_of_true ⟨id,rfl⟩ (by rintro ⟨⟩)
  | raised =>
    refine iff_of_false ?_ (fun different => different rfl)
    rintro ⟨id,impossible⟩
    cases impossible

/-- A backfill records its guard exactly when it reaches it. -/
theorem backfill_recorded_iff (guards : Guards) (slug : String) (days : ℤ) (now : ℚ)
    (history : ℤ → ℤ → Harvest (NormalizedFundingData Scalar)) :
    (backfill replies guards slug days now history).recorded = true ↔
      ReachesGuard replies guards slug days now (history (startMs now days) (endMs now)) := by
  unfold backfill
  cases reading : (guards.get (guardKey slug days)).error with
  | some e =>
    refine iff_of_false Bool.false_ne_true fun reaches => ?_
    have read := reaches.read
    rw [reading] at read
    cases read
  | none =>
    dsimp only
    split
    · rename_i guarded
      exact iff_of_false Bool.false_ne_true (fun reaches => reaches.unguarded guarded)
    · rename_i unguarded
      split
      · rename_i undated
        exact iff_of_false Bool.false_ne_true (fun reaches => undated reaches.dated)
      · rename_i dated
        have absent : (∀ id, ensureExchange replies.exchange ≠ .ok (some id)) →
            ¬ ReachesGuard replies guards slug days now (history (startMs now days) (endMs now)) := by
          intro none reaches
          obtain ⟨id,found⟩ := ensureExchange_ok.mpr reaches.exchange
          exact none id found
        cases looked : ensureExchange replies.exchange with
        | error e => exact iff_of_false Bool.false_ne_true (absent fun id found => by rw [looked] at found; cases found)
        | ok found =>
          cases found with
          | none => exact iff_of_false Bool.false_ne_true (absent fun id found => by rw [looked] at found; cases found)
          | some id =>
            dsimp only
            rw [(store_recorded _ _).1,rowsOf_length_eq id 0]
            constructor
            · rintro ⟨accepted,finished,stored,upserted⟩
              exact ⟨reading,unguarded,not_not.mp dated,ensureExchange_ok.mp ⟨id,looked⟩,finished,stored,upserted,accepted⟩
            · rintro ⟨-,-,-,-,finished,stored,upserted,accepted⟩
              exact ⟨accepted,finished,stored,upserted⟩

/-- With the guard, the rows of all yielded records whose tokens are found are passed on. -/
theorem backfill_passed (guards : Guards) (slug : String) (days : ℤ) (now : ℚ)
    (history : ℤ → ℤ → Harvest (NormalizedFundingData Scalar))
    (recorded : (backfill replies guards slug days now history).recorded = true) :
    ∃ id, (backfill replies guards slug days now history).passed.flatten =
      rowsOf replies id 0 (history (startMs now days) (endMs now)).yielded := by
  have reaches := (backfill_recorded_iff _ _ _ _ _).mp recorded
  obtain ⟨id,found⟩ := ensureExchange_ok.mpr reaches.exchange
  have stores : backfill replies guards slug days now history =
      store replies id (guards.set (guardKey slug days)) (history (startMs now days) (endMs now)) := by
    unfold backfill
    rw [reaches.read]
    dsimp only
    rw [if_neg reaches.unguarded,if_neg (not_not.mpr reaches.dated),found]
  rw [stores] at recorded ⊢
  exact ⟨id,(store_recorded _ _).2 recorded⟩

/-! ### When the guard tells the truth -/

theorem ensureToken_found {reply : TokenReply} (looked : reply ≠ .raised) (known : reply ≠ .conflict none) :
    ∃ tokenId, ensureToken reply = .ok (some tokenId) := by
  cases reply with
  | cached id => exact ⟨id,rfl⟩
  | selected id => exact ⟨id,rfl⟩
  | inserted id => exact ⟨id,rfl⟩
  | conflict found =>
    cases found with
    | none => exact absurd rfl known
    | some id => exact ⟨id,rfl⟩
  | raised => exact absurd rfl looked

theorem rowsOf_length_le (i : ℕ) (records : List (NormalizedFundingData Scalar)) :
    (rowsOf replies exchangeId i records).length ≤ records.length := by
  induction records generalizing i with
  | nil => exact Nat.le_refl 0
  | cons r rest ih =>
    have later := ih (i + 1)
    simp only [rowsOf]
    cases ensureToken (replies.token i) with
    | error e => exact Nat.le_succ_of_le later
    | ok found =>
      cases found with
      | none => exact Nat.le_succ_of_le later
      | some id => exact Nat.succ_le_succ later

/-- Every record has its row where every token is found. -/
theorem rowsOf_forall₂ (i : ℕ) (records : List (NormalizedFundingData Scalar))
    (found : ∀ j < records.length, ∃ tokenId, ensureToken (replies.token (i + j)) = .ok (some tokenId)) :
    List.Forall₂ (fun r row => ∃ tokenId, row = rowOf exchangeId tokenId r) records (rowsOf replies exchangeId i records) := by
  induction records generalizing i with
  | nil => exact List.Forall₂.nil
  | cons r rest ih =>
    obtain ⟨tokenId,first⟩ := found 0 (Nat.zero_lt_succ _)
    rw [Nat.add_zero] at first
    have later := ih (i + 1) (by
      intro j lt
      rw [Nat.add_right_comm i 1 j]
      exact found (j + 1) (Nat.succ_lt_succ lt))
    simp only [rowsOf,first]
    exact .cons ⟨tokenId,rfl⟩ later

/-- A record whose token is not found has no row. -/
theorem tokens_of_rowsOf_length (i : ℕ) (records : List (NormalizedFundingData Scalar))
    (all : records.length ≤ (rowsOf replies exchangeId i records).length) :
    ∀ j < records.length, replies.token (i + j) ≠ .conflict none := by
  induction records generalizing i with
  | nil =>
    intro j impossible
    cases impossible
  | cons r rest ih =>
    have later := @rowsOf_length_le replies exchangeId (i + 1) rest
    have first : replies.token i ≠ .conflict none := by
      intro conflict
      simp only [rowsOf,conflict,ensureToken,List.length_cons] at all
      omega
    have rest_all : rest.length ≤ (rowsOf replies exchangeId (i + 1) rest).length := by
      rw [rowsOf_cons,List.length_append,List.length_cons] at all
      have one := @rowsOf_length_le replies exchangeId i [r]
      rw [List.length_singleton] at one
      omega
    intro j lt
    cases j with
    | zero => exact first
    | succ j =>
      have : i + (j + 1) = i + 1 + j := by omega
      rw [this]
      exact ih (i + 1) rest_all j (Nat.lt_of_succ_lt_succ lt)

/-- The guard of a backfill vouches for the history of every listed symbol exactly when the run
    does not get to it, or all that is listed was loaded, every request succeeded and was followed
    up, every page could be read to its last well-formed record, and every token was found. -/
theorem recorded_complete_iff (py : Numerals) (collector : Collector) (nowMs : ℤ) (requests : ℕ) (replies : Replies)
    (guards : Guards) (days : ℤ) (now : ℚ) :
    ((backfill replies guards collector.slug days now (collector.harvest py nowMs requests)).recorded = true →
      Complete collector.listed (startMs now days) (min (endMs now) nowMs)
        (collector.harvest py nowMs requests (startMs now days) (endMs now))
        (backfill replies guards collector.slug days now (collector.harvest py nowMs requests))) ↔
    (ReachesGuard replies guards collector.slug days now (collector.harvest py nowMs requests (startMs now days) (endMs now)) →
      Clean replies collector.listed (collector.loaded py nowMs) (startMs now days) (min (endMs now) nowMs)
        (collector.harvest py nowMs requests (startMs now days) (endMs now))) := by
  rw [backfill_recorded_iff]
  refine imp_congr_right ?_
  intro reaches
  obtain ⟨id,passed⟩ := backfill_passed guards collector.slug days now (collector.harvest py nowMs requests)
    ((backfill_recorded_iff _ _ _ _ _).mpr reaches)
  have covers := collector.harvest_covers reaches.finished
  generalize collector.harvest py nowMs requests (startMs now days) (endMs now) = h at reaches passed covers
  have looked : ∀ i < h.yielded.length, replies.token i ≠ .raised := by
    intro i lt
    have := reaches.stored.looked i lt
    rwa [Nat.zero_add] at this
  constructor
  · rintro ⟨known,covered,succeeded,id',rows⟩
    have same := rows.length_eq
    rw [passed] at same
    have short := h.yielded_sublist.length_le
    have rowsLe := @rowsOf_length_le replies id 0 h.yielded
    have all := h.yielded_sublist.eq_of_length (by omega)
    have whole : ∀ symbols ∈ collector.listed, ∀ k ∈ symbols, _ := fun symbols listed k member => (covers k).mp (by
      intro t low high
      obtain ⟨q,made,named,-,inside⟩ := covered symbols listed k member t low high
      exact ⟨q,made,named,inside⟩)
    refine ⟨known,fun symbols listed k member => (whole symbols listed k member).1,succeeded,
      fun symbols listed k member => (whole symbols listed k member).2,h.yielded_eq_iff.mp all,?_⟩
    intro i lt
    have := @tokens_of_rowsOf_length replies id 0 h.yielded (by omega) i lt
    rwa [Nat.zero_add] at this
  · rintro ⟨known,loaded,succeeded,pursued,readable,tokens⟩
    refine ⟨known,?_,succeeded,id,?_⟩
    · intro symbols listed k member t low high
      obtain ⟨q,made,named,inside⟩ := (covers k).mpr ⟨loaded symbols listed k member,pursued symbols listed k member⟩ t low high
      exact ⟨q,made,named,succeeded q made,inside⟩
    · rw [passed,← h.yielded_eq_iff.mpr readable]
      refine rowsOf_forall₂ 0 h.yielded ?_
      intro j lt
      rw [Nat.zero_add]
      exact ensureToken_found (looked j lt) (tokens j lt)

/-- A collector that knows one symbol. -/
def oneSymbol : AsterCollector := ⟨{},.empty,.empty,[.str "BTCUSDT"],.empty⟩
/-- A server that answers no request, so that there are no numerals to read. -/
def silentCollector : Collector := .aster oneSymbol none (fun _ _ _ _ => none)
def unread : Numerals := ⟨fun _ => none,fun _ => none⟩
/-- A database that accepts everything. -/
def willing : Replies := ⟨.selected 1,fun _ => .selected 1,fun _ => some 0⟩

/-- No backfill has been recorded yet. -/
def noGuards : Guards := ⟨fun _ => .absent,fun _ => true⟩

/-- The only request of a backfill fails, and the backfill is recorded as done. -/
theorem silent_backfill_recorded :
    (backfill willing noGuards silentCollector.slug 30 1700000000 (silentCollector.harvest unread 1700000000000 1)).recorded =
      true ∧
    ¬ Complete silentCollector.listed (startMs 1700000000 30) (min (endMs 1700000000) 1700000000000)
      (silentCollector.harvest unread 1700000000000 1 (startMs 1700000000 30) (endMs 1700000000))
      (backfill willing noGuards silentCollector.slug 30 1700000000 (silentCollector.harvest unread 1700000000000 1)) := by
  refine ⟨by decide +kernel,?_⟩
  intro complete
  have failed : (silentCollector.harvest unread 1700000000000 1 (startMs 1700000000 30)
      (endMs 1700000000)).requests.any (fun q => q.response.isNone) = true := by decide +kernel
  obtain ⟨q,member,noResponse⟩ := List.any_eq_true.mp failed
  exact complete.succeeded q member (Option.isNone_iff_eq_none.mp noResponse)

end Backfill
end FundingRadar
