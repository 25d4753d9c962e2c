import RuneSettlement.Exchange.Calls
import RuneSettlement.Proofs.Runs

/-!
# Sessions

In a session any number of calls on an exchange are under way at once. One event begins a call or
takes a call that waits one stage further, with whatever reply its question gets; events follow each
other in any order. What a session does to the settlement state is a run of settlement calls, at
most one per event (`Session.settlement_after`).
-/

namespace RuneSettlement

/-- The settlement call that a section makes. -/
def Section.call? (e : Exchange) (now : Timestamp) : Section → Option Settlement.Call
  | registerPrimary keys =>
    if e.primary.isSome then none
    else some (.registerPool e.config.poolName keys e.config.runeId e.config.depositAmount "")
  | registerPool pool =>
    some (.registerPool pool.name pool.keys pool.token pool.depositAmount pool.attributes)
  | takeDeposit pool runeLeg nativeLeg => some (.deposit pool runeLeg nativeLeg)
  | stage request confirmed => some (.execute request confirmed now)
  | undo request staged _ => some (.rollback request.txid staged.poolKey)

/-- The settlement call that the first section of a request makes. -/
def Request.call? (now : Timestamp) : Request → Option Settlement.Call
  | finalize request => some (.finalize request.txid request.poolKey now)
  | rollback request => some (.rollback request.txid request.poolKey)
  | claim account => some (.claim account now)
  | accrue account amount => some (.accrue account amount)
  | _ => none

namespace Stage

/-- The stage after this one, with the replies that the call would get now. -/
def advance (now : Timestamp) (replies : (q : Question) → Reply q) (e : Exchange) :
    Stage → Stage × Exchange
  | run next => next.run now e
  | ask inquiry => (inquiry.hear (replies inquiry.question), e)
  | answered result => (answered result, e)

def call? (e : Exchange) (now : Timestamp) : Stage → Option Settlement.Call
  | run next => next.call? e now
  | _ => none

/-- The section that runs next, if a call stands before one. -/
def section? : Stage → Option Section
  | run next => some next
  | _ => none

lemma eq_run_of_section? {stage : Stage} {next : Section} (h : stage.section? = some next) :
    stage = .run next := by
  cases stage <;> cases h
  rfl

/-- Where a call may stand that has staged nothing, by its request. -/
inductive Opens : Stage → Request → Prop
  | answered {request : Request} {result : Outcome Answer} : Opens (.answered result) request
  | primaryKeys {path : DerivationPath} : Opens (.ask (.primaryKeys path)) .initKey
  | registerPrimary {keys : PoolKeys} : Opens (.run (.registerPrimary keys)) .initKey
  | poolKeys {name : String} {token : CoinId} {depositAmount : Amount} {attributes : String} :
      Opens (.ask (.poolKeys name token depositAmount attributes))
        (.createPool name token depositAmount attributes)
  | registerPool {name : String} {keys : PoolKeys} {token : CoinId} {depositAmount : Amount}
      {attributes : String} :
      Opens (.run (.registerPool (.create name keys token depositAmount attributes)))
        (.createPool name token depositAmount attributes)
  | declaredCoin {pool : Address} {runeLeg nativeLeg : Utxo} {outpoint : OutPoint} {declared : Coin}
      {later : List (OutPoint × Coin)} :
      Opens (.ask (.declaredCoin pool runeLeg nativeLeg outpoint declared later))
        (.deposit pool runeLeg nativeLeg)
  | takeDeposit {pool : Address} {runeLeg nativeLeg : Utxo} :
      Opens (.run (.takeDeposit pool runeLeg nativeLeg)) (.deposit pool runeLeg nativeLeg)
  | unknownToken {request : ExecuteRequest} {id : CoinId} {later confirmed : List CoinId} :
      Opens (.ask (.unknownToken request id later confirmed)) (.execute request)
  | stage {request : ExecuteRequest} {confirmed : List CoinId} :
      Opens (.run (.stage request confirmed)) (.execute request)

/-- Where a call may stand, by its request. -/
inductive Serves : Stage → Request → Prop
  | opens {stage : Stage} {request : Request} (opens : stage.Opens request) : Serves stage request
  | signature {request : ExecuteRequest} {staged : StagedExecution} :
      Serves (.ask (.signature request staged)) (.execute request)
  | undo {request : ExecuteRequest} {staged : StagedExecution} {refusal : Refusal} :
      Serves (.run (.undo request staged refusal)) (.execute request)

end Stage

/-- An exchange with the calls made on it, each as its request and where it stands. -/
structure Session where
  exchange : Exchange
  calls : List (Request × Stage)

namespace Session

inductive Event
  | begin (request : Request) (now : Timestamp)
  /-- The call of a number goes on by one stage. -/
  | resume (call : Nat) (now : Timestamp) (replies : (q : Question) → Reply q)

def start (config : Config) : Session := ⟨.create config, []⟩

def step (s : Session) : Event → Session
  | .begin request now =>
    let (stage, exchange) := s.exchange.begin request now
    ⟨exchange, s.calls ++ [(request, stage)]⟩
  | .resume k now replies =>
    match s.calls[k]? with
    | some (request, stage) =>
      let (next, exchange) := stage.advance now replies s.exchange
      ⟨exchange, s.calls.set k (request, next)⟩
    | none => s

def after (s : Session) (events : List Event) : Session := events.foldl step s

/-- The settlement call that an event makes. -/
def Event.call? (s : Session) : Event → Option Settlement.Call
  | begin request now => request.call? now
  | resume k now _ => s.calls[k]?.bind fun c => c.2.call? s.exchange now

/-- The settlement calls that the events make, in their order. -/
def settlementCalls (s : Session) : List Event → List Settlement.Call
  | [] => []
  | event :: events => (event.call? s).toList ++ (s.step event).settlementCalls events

lemma after_append (s : Session) (events later : List Event) :
    s.after (events ++ later) = (s.after events).after later := List.foldl_append

lemma after_concat (s : Session) (events : List Event) (event : Event) :
    s.after (events ++ [event]) = (s.after events).step event := s.after_append events [event]

lemma settlementCalls_append (s : Session) (events later : List Event) :
    s.settlementCalls (events ++ later) =
      s.settlementCalls events ++ (s.after events).settlementCalls later := by
  induction events generalizing s with
  | nil => rfl
  | cons event events ih =>
    rw [List.cons_append, settlementCalls, ih, settlementCalls, List.append_assoc]
    rfl

lemma settlementCalls_concat (s : Session) (events : List Event) (event : Event) :
    s.settlementCalls (events ++ [event]) =
      s.settlementCalls events ++ (event.call? (s.after events)).toList := by
  rw [settlementCalls_append, settlementCalls, settlementCalls, List.append_nil]

end Session

lemma Settlement.run_map {α β : Type} (s : Settlement) (x : SettlementM α) (f : α → β) :
    (x >>= fun a => pure (f a)).run.run s = ((x.run.run s).1.map f, (x.run.run s).2) := by
  rw [run_bind]
  rcases x.run.run s with ⟨answer, next⟩
  cases answer <;> rfl

/-- The exchange `e'` is `e` after one settlement call, or after none. -/
structure Exchange.Follows (e e' : Exchange) (call? : Option Settlement.Call) : Prop where
  settlement : e'.settlement = e.settlement.after call?.toList
  config : e'.config = e.config

namespace Exchange

variable {e : Exchange} {call : Settlement.Call}

lemma settle_eq {α : Type} (e : Exchange) (x : SettlementM α) :
    e.settle x =
      ((x.run.run e.settlement).1, { e with settlement := (x.run.run e.settlement).2 }) := rfl

lemma follows_refl (e : Exchange) : e.Follows e none := ⟨rfl, rfl⟩

lemma follows_settle {α : Type} (x : SettlementM α) (receipt : α → Settlement.Receipt)
    (h : call.act = x >>= fun a => pure (receipt a)) : e.Follows (e.settle x).2 (some call) where
  settlement := by
    change (x.run.run e.settlement).2 = (call.act.run.run e.settlement).2
    rw [h, Settlement.run_map]
  config := rfl

lemma follows_answerBy {α : Type} (answer : α → Answer) (x : SettlementM α)
    (receipt : α → Settlement.Receipt) (h : call.act = x >>= fun a => pure (receipt a)) :
    e.Follows (e.answerBy answer x).2 (some call) := follows_settle x receipt h

lemma follows_registerPrimary (e : Exchange) (keys : PoolKeys) (now : Timestamp) :
    e.Follows (e.registerPrimary keys).2 ((Section.registerPrimary keys).call? e now) := by
  unfold registerPrimary Section.call?
  split
  · exact e.follows_refl
  · have h : e.Follows (e.settle (Settlement.registerPool
        (.create e.config.poolName keys e.config.runeId e.config.depositAmount ""))).2
        (some (.registerPool e.config.poolName keys e.config.runeId e.config.depositAmount "")) :=
      follows_settle _ (fun _ => .done) rfl
    dsimp only
    split
    · next heq =>
      rw [heq] at h
      exact ⟨h.settlement, h.config⟩
    · next heq =>
      rw [heq] at h
      exact h

end Exchange

/-- After its staging section an execution waits for the signer, or it is refused. -/
lemma Section.run_stage_cases (e : Exchange) (request : ExecuteRequest) (confirmed : List CoinId)
    (now : Timestamp) :
    (∃ staged, (e.settlement.perform (.execute request confirmed now)).1 = .ok (.staged staged) ∧
      ((stage request confirmed).run now e).1 = .ask (.signature request staged)) ∨
    ∃ refusal, (e.settlement.perform (.execute request confirmed now)).1 = .error refusal ∧
      ((stage request confirmed).run now e).1 = .answered (.error refusal) := by
  rw [Settlement.perform, Settlement.Call.act, Settlement.run_map]
  simp only [run, Exchange.settle_eq]
  cases ((Settlement.execute request confirmed now).run.run e.settlement).1 with
  | ok staged => exact .inl ⟨staged, rfl, rfl⟩
  | error refusal => exact .inr ⟨refusal, rfl, rfl⟩

lemma Section.settlement_stage (e : Exchange) (request : ExecuteRequest) (confirmed : List CoinId)
    (now : Timestamp) :
    ((stage request confirmed).run now e).2 =
      { e with settlement := (e.settlement.perform (.execute request confirmed now)).2 } := by
  rw [Settlement.perform, Settlement.Call.act, Settlement.run_map]
  simp only [run, Exchange.settle_eq]
  cases ((Settlement.execute request confirmed now).run.run e.settlement).1 <;> rfl

lemma Section.settlement_undo (e : Exchange) (request : ExecuteRequest) (staged : StagedExecution)
    (refusal : Refusal) (now : Timestamp) :
    ((undo request staged refusal).run now e).2 =
      { e with
        settlement := (e.settlement.perform (.rollback request.txid staged.poolKey)).2 } := by
  rw [Settlement.perform, Settlement.Call.act, Settlement.run_map]
  rfl

namespace Stage

variable {original : Request} {stage : Stage}

lemma follows_advance (e : Exchange) (now : Timestamp) (replies : (q : Question) → Reply q)
    (h : stage.Serves original) :
    e.Follows (stage.advance now replies e).2 (stage.call? e now) := by
  cases h with
  | signature => exact e.follows_refl
  | @undo request staged refusal =>
    exact Exchange.follows_settle (Settlement.rollback request.txid staged.poolKey)
      (fun _ => .done) rfl
  | opens h =>
    cases h with
    | registerPrimary => exact e.follows_registerPrimary _ now
    | registerPool =>
      exact Exchange.follows_answerBy _ (Settlement.registerPool _) (fun _ => .done) rfl
    | @takeDeposit pool runeLeg nativeLeg =>
      exact Exchange.follows_answerBy _ (Settlement.deposit pool runeLeg nativeLeg)
        (fun _ => .done) rfl
    | @stage request confirmed =>
      rw [advance, Section.settlement_stage]
      exact ⟨rfl, rfl⟩
    | _ => exact e.follows_refl

lemma opens_checkLegs (pool : Address) (runeLeg nativeLeg : Utxo) (later : List (OutPoint × Coin)) :
    (checkLegs pool runeLeg nativeLeg later).Opens (.deposit pool runeLeg nativeLeg) := by
  cases later with
  | nil => exact .takeDeposit
  | cons _ later => exact .declaredCoin

lemma opens_confirmTokens (request : ExecuteRequest) (confirmed later : List CoinId) :
    (confirmTokens request confirmed later).Opens (.execute request) := by
  cases later with
  | nil => exact .stage
  | cons _ later => exact .unknownToken

/-- Only an accepted staging section and a refused signature lead on from where nothing is
staged. -/
lemma advance_cases (e : Exchange) (now : Timestamp) (replies : (q : Question) → Reply q)
    (h : stage.Serves original) :
    (stage.advance now replies e).1.Opens original ∨
      (∃ request confirmed staged, original = .execute request ∧
        stage = .run (.stage request confirmed) ∧
        (e.settlement.perform (.execute request confirmed now)).1 = .ok (.staged staged) ∧
        (stage.advance now replies e).1 = .ask (.signature request staged)) ∨
      ∃ request staged refusal, original = .execute request ∧
        stage = .ask (.signature request staged) ∧
        replies (.signature staged.path staged.payload) = .error refusal ∧
        (stage.advance now replies e).1 = .run (.undo request staged refusal) := by
  cases h with
  | undo => exact .inl .answered
  | @signature request staged =>
    simp only [advance, Inquiry.question]
    cases hreply : replies (.signature staged.path staged.payload) with
    | ok bytes => exact .inl .answered
    | error refusal => exact .inr (.inr ⟨request, staged, refusal, rfl, rfl, hreply, rfl⟩)
  | opens h =>
    cases h with
    | @stage request confirmed =>
      rcases Section.run_stage_cases e request confirmed now with
        ⟨staged, hstaged, hwaits⟩ | ⟨refusal, -, hrefused⟩
      · exact .inr (.inl ⟨request, confirmed, staged, rfl, rfl, hstaged, hwaits⟩)
      · refine .inl ?_
        rw [advance, hrefused]
        exact .answered
    | @primaryKeys path =>
      simp only [advance, Inquiry.question]
      cases replies (.keys path) with
      | ok keys => exact .inl .registerPrimary
      | error refusal => exact .inl .answered
    | @poolKeys name token depositAmount attributes =>
      simp only [advance, Inquiry.question]
      cases replies (.keys [utf8 name]) with
      | ok keys => exact .inl .registerPool
      | error refusal => exact .inl .answered
    | @declaredCoin pool runeLeg nativeLeg outpoint declared later =>
      simp only [advance, Inquiry.question]
      cases replies (.outputCoins outpoint) with
      | error refusal => exact .inl .answered
      | ok coins =>
        simp only [Inquiry.hear]
        split
        · exact .inl (opens_checkLegs pool runeLeg nativeLeg later)
        · exact .inl .answered
    | @unknownToken request id later confirmed =>
      simp only [advance, Inquiry.question]
      cases replies (.runeEntry id) with
      | error refusal => exact .inl .answered
      | ok entry =>
        cases entry with
        | none => exact .inl .answered
        | some entry => exact .inl (opens_confirmTokens request (confirmed ++ [id]) later)
    | _ => exact .inl .answered

lemma Serves.advance (e : Exchange) (now : Timestamp) (replies : (q : Question) → Reply q)
    (h : stage.Serves original) : (stage.advance now replies e).1.Serves original := by
  rcases advance_cases e now replies h with hopens | ⟨_, _, _, rfl, -, -, hnext⟩ |
    ⟨_, _, _, rfl, -, -, hnext⟩
  · exact .opens hopens
  · rw [hnext]
    exact .signature
  · rw [hnext]
    exact .undo

end Stage

namespace Exchange

lemma follows_begin (e : Exchange) (request : Request) (now : Timestamp) :
    e.Follows (e.begin request now).2 (request.call? now) := by
  cases request with
  | initKey =>
    simp only [begin]
    split <;> exact e.follows_refl
  | createPool name token depositAmount attributes =>
    simp only [begin]
    split
    · exact e.follows_refl
    · split <;> exact e.follows_refl
  | deposit pool runeLeg nativeLeg => exact e.follows_refl
  | execute request =>
    simp only [begin]
    split <;> exact e.follows_refl
  | finalize request =>
    exact follows_answerBy _ (Settlement.finalize request.txid request.poolKey now)
      (fun _ => .done) rfl
  | rollback request =>
    exact follows_answerBy _ (Settlement.rollback request.txid request.poolKey)
      (fun _ => .done) rfl
  | claim account => exact follows_answerBy _ (Settlement.claim account now) .amount rfl
  | accrue account amount => exact follows_answerBy _ (Settlement.accrue account amount) .amount rfl

lemma opens_begin (e : Exchange) (request : Request) (now : Timestamp) :
    (e.begin request now).1.Opens request := by
  cases request with
  | initKey =>
    simp only [begin]
    split
    · exact .answered
    · exact .primaryKeys
  | createPool name token depositAmount attributes =>
    simp only [begin]
    split
    · exact .answered
    · split
      · exact .answered
      · exact .poolKeys
  | deposit pool runeLeg nativeLeg => exact Stage.opens_checkLegs ..
  | execute request =>
    simp only [begin]
    split
    · exact Stage.opens_confirmTokens ..
    · exact .answered
  | _ => exact .answered

end Exchange

namespace Session

/-- Every call stands where its request may have brought it. -/
def Sound (s : Session) : Prop := ∀ call ∈ s.calls, call.2.Serves call.1

variable {s : Session}

lemma Sound.step (hs : s.Sound) (event : Event) : (s.step event).Sound := by
  intro call hcall
  cases event with
  | begin request now =>
    rcases List.mem_append.1 hcall with hold | hnew
    · exact hs call hold
    · rw [List.mem_singleton.1 hnew]
      exact .opens (s.exchange.opens_begin request now)
  | resume k now replies =>
    simp only [Session.step] at hcall
    split at hcall
    · next request stage hstage =>
      rcases List.mem_or_eq_of_mem_set hcall with hold | rfl
      · exact hs call hold
      · exact (hs _ (List.mem_of_getElem? hstage)).advance s.exchange now replies
    · exact hs call hcall

lemma follows_step (hs : s.Sound) (event : Event) :
    s.exchange.Follows (s.step event).exchange (event.call? s) := by
  cases event with
  | begin request now => exact s.exchange.follows_begin request now
  | resume k now replies =>
    simp only [Session.step, Event.call?]
    cases hcall : s.calls[k]? with
    | none => exact s.exchange.follows_refl
    | some call =>
      exact Stage.follows_advance s.exchange now replies (hs call (List.mem_of_getElem? hcall))

section Run

variable (config : Config) (events : List Event)

lemma sound_after : ((start config).after events).Sound := by
  induction events using List.reverseRecOn with
  | nil =>
    intro call hcall
    cases hcall
  | append_singleton events event ih =>
    rw [after_concat]
    exact ih.step event

/-- The settlement state of a session is that after its settlement calls. -/
theorem settlement_after :
    ((start config).after events).exchange.settlement =
      (Settlement.ofConfig config).after ((start config).settlementCalls events) := by
  induction events using List.reverseRecOn with
  | nil => rfl
  | append_singleton events event ih =>
    rw [after_concat, settlementCalls_concat, Settlement.after_append, ← ih]
    exact (follows_step (sound_after config events) event).settlement

end Run

/-! ### Calls on one pool -/

namespace Sample

open Settlement.Sample (token)

def config : Config := { Config.default with exchangeId := "exchange" }

def replies : (q : Question) → Reply q
  | .keys path => .ok ⟨"untweaked", "tweaked", path, "pool"⟩
  | .signature _ _ => .ok [0]
  | .runeEntry _ => .ok none
  | .outputCoins _ => .ok [⟨token, 100#128⟩]

/-- Call `k` from its first section to its answer, with no other call in between. -/
def whole (k : Nat) (request : Request) (stages : Nat) : List Event :=
  .begin request 0#64 :: List.replicate stages (.resume k 0#64 replies)

/-- Swaps one coin for another and moves the pool's first output on. -/
def swap (nonce : Nonce) (spend receive : OutPoint) (input output : Coin) : Intention where
  exchangeId := "exchange"
  action := "swap"
  parameters := ""
  pool := "pool"
  nonce
  spends := [spend.text]
  receives := [receive.text]
  inputs := [⟨"trader", input⟩]
  outputs := [⟨"trader", output⟩]

def execute (id : Txid) (i : Intention) : Request :=
  .execute ⟨"00", id.text, ⟨"trader", [i]⟩, 0#32, 0#32⟩

end Sample

end Session

end RuneSettlement
