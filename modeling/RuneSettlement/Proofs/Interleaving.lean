import RuneSettlement.Proofs.SessionLog
import RuneSettlement.Proofs.Turns

/-!
# Interleaved executions

An execution checks its request, asks the indexer, stages the transaction, asks the signer and,
where the signer fails, rolls back. Between any two of these other calls may do anything. Still the
slot of a pool is filled only when it is empty, for the present nonce of the pool, and emptied only
on behalf of its own transaction; and a transaction whose signature was refused is left resolved
(`Session.interleavings_safe`).
-/

namespace RuneSettlement

open ResolutionLog (Entry)

namespace Session

/-- An execution stages a transaction, made for the present nonce of its pool, in the empty slot of
the pool. -/
structure Stages (s s' : Session) (request : ExecuteRequest) (staged : StagedExecution)
    (slot : PendingTransaction) : Prop where
  idle : s.settlement.pendingOn? staged.pool = none
  holds : s'.settlement.pendingOn? staged.pool = some slot
  txid : slot.txid = staged.txid
  named : Txid.parse request.txid = .ok staged.txid
  keyed : s.settlement.registry.addressForKey staged.poolKey = .ok staged.pool
  nonce : ∃ i pool, request.set.select request.index = .ok i ∧ i.pool = staged.pool ∧
    s.settlement.registry.get? staged.pool = some pool ∧ i.nonce = pool.nonce

/-- All that an event can do to the slot of one pool. -/
inductive SlotStep (s s' : Session) (event : Event) (p : Address) : Prop
  | kept (same : s'.settlement.pendingOn? p = s.settlement.pendingOn? p)
  | filled {k : Nat} {now : Timestamp} {replies : (q : Question) → Reply q} {original : Request}
      {request : ExecuteRequest} {confirmed : List CoinId} {staged : StagedExecution}
      {slot : PendingTransaction} (turn : event = .resume k now replies)
      (stage : s.calls[k]? = some (original, .run (.stage request confirmed)))
      (signs : s'.calls[k]? = some (original, .ask (.signature request staged)))
      (pool : staged.pool = p) (stages : s.Stages s' request staged slot)
  | emptied {slot : PendingTransaction} {text poolKey : String}
      (call : event.call? s = some (.rollback text poolKey) ∨
        ∃ now, event.call? s = some (.finalize text poolKey now))
      (named : Txid.parse text = .ok slot.txid)
      (keyed : s.settlement.registry.addressForKey poolKey = .ok p)
      (held : s.settlement.pendingOn? p = some slot) (left : s'.settlement.pendingOn? p = none)

/-- Only the staging section of an execution makes an execute call. -/
lemma exists_stage_of_call? {s : Session} {event : Event} {request : ExecuteRequest}
    {confirmed : List CoinId} {now : Timestamp}
    (h : event.call? s = some (.execute request confirmed now)) :
    ∃ k replies original, event = .resume k now replies ∧
      s.calls[k]? = some (original, .run (.stage request confirmed)) := by
  cases event with
  | begin request now => cases request <;> cases h
  | resume k now replies =>
    obtain ⟨⟨original, stage⟩, hcall, hstage⟩ := Option.bind_eq_some_iff.1 h
    cases stage with
    | run next =>
      cases next with
      | registerPrimary keys =>
        simp only [Stage.call?, Section.call?] at hstage
        split at hstage <;> cases hstage
      | stage request confirmed =>
        cases hstage
        exact ⟨k, replies, original, rfl, hcall⟩
      | _ => cases hstage
    | ask inquiry => cases hstage
    | answered result => cases hstage

section Steps

variable {s : Session} {room : Nat} {history : List Entry}

/-- An accepted staging section fills the empty slot of its pool. -/
lemma stages_of_prepare {event : Event} {request : ExecuteRequest} {now : Timestamp}
    {prepared : Prepared} (h : s.settlement.Remembers room history)
    (hprepared : s.settlement.prepare request now = .ok prepared)
    (hholds : (s.step event).settlement.pendingOn? prepared.plan.staged.address =
      some (prepared.pendingTransaction request now)) :
    s.Stages (s.step event) request prepared.stagedExecution
      (prepared.pendingTransaction request now) := by
  obtain ⟨htext, hidle, hkey, hnonce⟩ :=
    h.consistent.of_prepare h.keyed hprepared
  exact ⟨hidle, hholds, rfl, htext, hkey, hnonce⟩

lemma stages_of_accepted {k : Nat} {now : Timestamp} {replies : (q : Question) → Reply q}
    {original : Request} {request : ExecuteRequest} {confirmed : List CoinId}
    {staged : StagedExecution} (hs : s.Sound) (h : s.settlement.Remembers room history)
    (hstage : s.calls[k]? = some (original, .run (.stage request confirmed)))
    (haccepted : (s.settlement.perform (.execute request confirmed now)).1 = .ok (.staged staged)) :
    ∃ slot, s.Stages (s.step (.resume k now replies)) request staged slot := by
  have hcall : Event.call? s (.resume k now replies) = some (.execute request confirmed now) := by
    simp only [Event.call?, hstage, Option.bind_some, Stage.call?, Section.call?]
  rcases moves_step hs (.resume k now replies) with ⟨hnone, -⟩ | ⟨call, hsome, hmove⟩
  · rw [hcall] at hnone
    cases hnone
  · obtain rfl := Option.some.inj (hcall.symm.trans hsome)
    rw [haccepted] at hmove
    obtain ⟨prepared, hprepared, rfl, hholds⟩ := hmove.of_execute_accepted
    exact ⟨_, stages_of_prepare h hprepared hholds⟩

/-- What an event does to a slot. -/
theorem slotStep (hs : s.Sound) (h : s.settlement.Remembers room history) (event : Event)
    (p : Address) : s.SlotStep (s.step event) event p := by
  rcases moves_step hs event with ⟨-, hsame⟩ | ⟨call, hcall, hmove⟩
  · exact .kept (congrArg (·.pendingOn? p) hsame)
  · rcases hmove.slot_cases p with hsame |
      ⟨request, confirmed, now, prepared, rfl, hanswer, hprepared, rfl, hholds⟩ |
      ⟨slot, text, poolKey, hnames, hnamed, hkeyed, hheld, hleft⟩
    · exact .kept hsame
    · obtain ⟨k, replies, original, rfl, hstage⟩ := exists_stage_of_call? hcall
      have hstages := stages_of_prepare h hprepared hholds
      have hsigns := calls_resume now replies hstage
      rcases Section.run_stage_cases s.exchange request confirmed now with
        ⟨staged, hstaged, hwaits⟩ | ⟨refusal, hrefused, -⟩
      · rw [hanswer] at hstaged
        cases hstaged
        rw [Stage.advance, hwaits] at hsigns
        exact .filled rfl hstage hsigns rfl hstages
      · rw [hanswer] at hrefused
        cases hrefused
    · refine .emptied ?_ hnamed hkeyed hheld hleft
      rcases hnames with rfl | ⟨now, rfl⟩
      · exact .inl hcall
      · exact .inr ⟨now, hcall⟩

end Steps

/-! ### Where an execution stands -/

section Turns

variable {k : Nat}

/-- A call that waits for the signer has run its staging section, which was accepted. -/
lemma exists_accepted {config : Config} {events : List Event} {original : Request}
    {request : ExecuteRequest} {staged : StagedExecution}
    (h : ((start config).after events).calls[k]? =
      some (original, .ask (.signature request staged))) :
    ∃ earlier now replies later confirmed,
      events = earlier ++ .resume k now replies :: later ∧
      ((start config).after earlier).calls[k]? = some (original, .run (.stage request confirmed)) ∧
      (((start config).after earlier).settlement.perform (.execute request confirmed now)).1 =
        .ok (.staged staged) := by
  obtain ⟨earlier, now, replies, later, before, rfl, hbefore, hnext⟩ :=
    exists_resume h (by intro hopens; cases hopens)
  have hserves : before.Serves original :=
    sound_after config earlier _ (List.mem_of_getElem? hbefore)
  rcases Stage.advance_cases ((start config).after earlier).exchange now replies hserves with
    hopens | ⟨_, confirmed, _, -, hstage, haccepted, hwaits⟩ | ⟨_, _, _, -, -, -, hundo⟩
  · rw [hnext] at hopens
    cases hopens
  · rw [hnext] at hwaits
    cases hwaits
    subst hstage
    exact ⟨earlier, now, replies, later, confirmed, rfl, hbefore, haccepted⟩
  · rw [hnext] at hundo
    cases hundo

/-- A call that waits for the signer has staged its transaction before. -/
lemma exists_staging {config : Config} {events : List Event} {original : Request}
    {request : ExecuteRequest} {staged : StagedExecution}
    (h : ((start config).after events).calls[k]? =
      some (original, .ask (.signature request staged))) :
    ∃ earlier now replies later confirmed slot,
      events = earlier ++ .resume k now replies :: later ∧
      ((start config).after earlier).calls[k]? = some (original, .run (.stage request confirmed)) ∧
      ((start config).after earlier).Stages
        (((start config).after earlier).step (.resume k now replies)) request staged slot := by
  obtain ⟨earlier, now, replies, later, confirmed, rfl, hbefore, haccepted⟩ := exists_accepted h
  obtain ⟨slot, hstages⟩ := stages_of_accepted (sound_after config earlier)
    (remembers_after config earlier) hbefore haccepted
  exact ⟨earlier, now, replies, later, confirmed, slot, rfl, hbefore, hstages⟩

/-- A call that is about to roll back has been refused by the signer. -/
lemma exists_refused_signature {config : Config} {events : List Event} {original : Request}
    {request : ExecuteRequest} {staged : StagedExecution} {refusal : Refusal}
    (h : ((start config).after events).calls[k]? =
      some (original, .run (.undo request staged refusal))) :
    ∃ earlier now replies later, events = earlier ++ .resume k now replies :: later ∧
      ((start config).after earlier).calls[k]? =
        some (original, .ask (.signature request staged)) ∧
      replies (.signature staged.path staged.payload) = .error refusal := by
  obtain ⟨earlier, now, replies, later, before, rfl, hbefore, hnext⟩ :=
    exists_resume h (by intro hopens; cases hopens)
  have hserves : before.Serves original :=
    sound_after config earlier _ (List.mem_of_getElem? hbefore)
  rcases Stage.advance_cases ((start config).after earlier).exchange now replies hserves with
    hopens | ⟨_, _, _, -, -, -, hwaits⟩ | ⟨_, _, _, -, hstage, hreply, hundo⟩
  · rw [hnext] at hopens
    cases hopens
  · rw [hnext] at hwaits
    cases hwaits
  · rw [hnext] at hundo
    cases hundo
    subst hstage
    exact ⟨earlier, now, replies, later, rfl, hbefore, hreply⟩

/-- As long as an execution has not waited for the signer, none of its events changes anything. -/
lemma exchange_of_unstaged {config : Config} {earlier later : List Event} {event : Event}
    {request : ExecuteRequest} {stage : Stage}
    (hturn : event.turn ((start config).after earlier) = k)
    (hcall : ((start config).after (earlier ++ event :: later)).calls[k]? =
      some (.execute request, stage))
    (hunstaged : ∀ before staged, before <+: earlier ++ event :: later →
      ((start config).after before).calls[k]? ≠
        some (.execute request, .ask (.signature request staged))) :
    (((start config).after earlier).step event).exchange =
      ((start config).after earlier).exchange := by
  have hsplit : (start config).after (earlier ++ event :: later) =
      (((start config).after earlier).step event).after later := by
    rw [List.append_cons, after_append, after_concat]
  rw [hsplit] at hcall
  cases event with
  | begin original now =>
    obtain rfl : ((start config).after earlier).calls.length = k := hturn
    obtain ⟨_, hlater⟩ := exists_stage_after later
      (calls_begin ((start config).after earlier) original now)
    rw [hcall] at hlater
    cases hlater
    change ((Exchange.begin _ (.execute request) now)).2 = _
    simp only [Exchange.begin]
    split <;> rfl
  | resume j now replies =>
    obtain rfl : j = k := hturn
    cases hstands : ((start config).after earlier).calls[j]? with
    | none => simp only [step, hstands]
    | some call =>
      obtain ⟨original, stands⟩ := call
      obtain ⟨_, hlater⟩ := exists_stage_after later (calls_resume now replies hstands)
      rw [hcall] at hlater
      cases hlater
      have hserves : stands.Serves (.execute request) :=
        sound_after config earlier _ (List.mem_of_getElem? hstands)
      rw [step_resume now replies hstands]
      cases hserves with
      | signature => rfl
      | undo =>
        obtain ⟨before, _, _, rest, hbefore, hsigns, -⟩ := exists_refused_signature hstands
        have hpast : before <+: earlier := ⟨_, hbefore.symm⟩
        exact absurd hsigns (hunstaged before _ (hpast.trans (List.prefix_append _ _)))
      | opens hopens =>
        cases hopens with
        | answered | unknownToken => rfl
        | @stage _ confirmed =>
          have hcases := Section.run_stage_cases ((start config).after earlier).exchange request
            confirmed now
          rcases hcases with ⟨staged, -, hwaits⟩ | ⟨refusal, hrefused, -⟩
          · have hsigns := calls_resume now replies hstands
            rw [Stage.advance, hwaits] at hsigns
            have hpast : earlier ++ [.resume j now replies] <+:
                earlier ++ .resume j now replies :: later := ⟨later, (List.append_cons ..).symm⟩
            have hmoment := hunstaged _ staged hpast
            rw [after_concat] at hmoment
            exact absurd hsigns hmoment
          · have hmove := Settlement.moves_perform ((start config).after earlier).settlement
              (.execute request confirmed now)
            rw [hrefused] at hmove
            rw [Stage.advance, Section.settlement_stage, hmove.eq_of_execute_refused]

end Turns

/-! ### Executions whose signature is refused -/

section Undoing

variable {config : Config} {events : List Event} {k : Nat} {slot : PendingTransaction}

/-- Call `k` has staged a transaction, an event since then has resolved it, and `since` is what has
been resolved after that. -/
structure Overtaken (config : Config) (events : List Event) (k : Nat) (request : ExecuteRequest)
    (staged : StagedExecution) (resolution : Resolution) (since : List Entry) : Prop where
  exists_ending : ∃ earlier now replies before ending later slot,
    events = earlier ++ .resume k now replies :: before ++ ending :: later ∧
    ((start config).after earlier).Stages
      (((start config).after earlier).step (.resume k now replies)) request staged slot ∧
    ending.resolution? ((start config).after (earlier ++ .resume k now replies :: before)) =
      some ((staged.pool, staged.txid), resolution) ∧
    (resolution = .finalized →
      (((start config).after (earlier ++ .resume k now replies :: before)).step
        ending).settlement.registry.get? staged.pool = some slot.staged) ∧
    since = (((start config).after (earlier ++ .resume k now replies :: before)).step
      ending).resolutions later

/-- How call `k` comes to its end after `events`, when its transaction was staged and the signer has
refused it. -/
structure Undone (config : Config) (events : List Event) (k : Nat) (request : ExecuteRequest)
    (staged : StagedExecution) (refusal : Refusal) (next : Session) : Prop where
  /-- The call answers what the signer has answered. -/
  answered : next.calls[k]? = some (.execute request, .answered (.error refusal))
  refused : ∃ earlier now replies later, events = earlier ++ .resume k now replies :: later ∧
    ((start config).after earlier).calls[k]? =
      some (.execute request, .ask (.signature request staged)) ∧
    replies (.signature staged.path staged.payload) = .error refusal
  settled : next.settlement.isPending staged.pool staged.txid = false
  /-- A transaction that is still pending is rolled back. -/
  dropped : ((start config).after events).settlement.isPending staged.pool staged.txid = true →
    next.settlement.status? staged.pool staged.txid = some (.resolved .rolledBack)
  /-- Otherwise nothing changes, and while the log reaches back to the event that has resolved the
  transaction, its outcome is known. -/
  kept : ((start config).after events).settlement.isPending staged.pool staged.txid = false →
    next.exchange = ((start config).after events).exchange ∧
    ∃ resolution since, Overtaken config events k request staged resolution since ∧
      (since.length < room config →
        next.settlement.status? staged.pool staged.txid = some (.resolved resolution))

/-- A transaction that call `k` has staged and that is pending no more was overtaken, and its
outcome is in the log while that reaches back. -/
lemma exists_overtaken {request : ExecuteRequest} {staged : StagedExecution}
    {earlier meanwhile : List Event} {now : Timestamp} {replies : (q : Question) → Reply q}
    (hstages : ((start config).after earlier).Stages
      (((start config).after earlier).step (.resume k now replies)) request staged slot)
    (hsettled : ((start config).after (earlier ++ .resume k now replies ::
      meanwhile)).settlement.isPending staged.pool staged.txid = false) :
    ∃ resolution since,
      Overtaken config (earlier ++ .resume k now replies :: meanwhile) k request staged resolution
        since ∧
      (since.length < room config →
        ((start config).after (earlier ++ .resume k now replies :: meanwhile)).settlement.status?
          staged.pool staged.txid = some (.resolved resolution)) := by
  rw [List.append_cons] at hsettled
  have hslot : ((start config).after (earlier ++ [.resume k now replies])).settlement.pendingOn?
      staged.pool = some slot := by
    rw [after_concat]
    exact hstages.holds
  have hleft : ((start config).after (earlier ++ [.resume k now replies] ++
      meanwhile)).settlement.pendingOn? staged.pool ≠ some slot := by
    intro hheld
    rw [Settlement.isPending_iff.2 ⟨slot, hheld, hstages.txid⟩] at hsettled
    cases hsettled
  obtain ⟨before, ending, later, resolution, rfl, hresolves, hcommits⟩ := exists_ending hslot hleft
  rw [hstages.txid] at hresolves
  have hremembers := remembers_after config
    (earlier ++ [.resume k now replies] ++ (before ++ ending :: later))
  rw [← List.append_assoc, resolutions_append, resolutions, hresolves, Option.toList_some,
    List.singleton_append] at hremembers
  simp only [← List.append_cons] at hresolves hcommits hremembers hsettled
  refine ⟨resolution, _, ⟨earlier, now, replies, before, ending, later, slot, ?_, hstages,
    hresolves, hcommits, rfl⟩, ?_⟩
  · rw [List.append_assoc, List.cons_append]
  · intro hrecent
    rw [Settlement.status?_eq_resolved_iff]
    refine ⟨hsettled, ?_⟩
    have hknown := hremembers.get?_of_recent hrecent
    rwa [List.append_assoc, List.cons_append] at hknown

lemma undone {request : ExecuteRequest} {staged : StagedExecution} {refusal : Refusal}
    (h : ((start config).after events).calls[k]? =
      some (.execute request, .run (.undo request staged refusal)))
    (now : Timestamp) (replies : (q : Question) → Reply q) :
    Undone config events k request staged refusal
      (((start config).after events).step (.resume k now replies)) := by
  obtain ⟨signing, signedAt, signer, afterwards, hevents, hsigns, hreply⟩ :=
    exists_refused_signature h
  obtain ⟨earlier, stagedAt, reply, between, _, slot, hsigning, -, hstages⟩ :=
    exists_staging hsigns
  have hexchange : (((start config).after events).step (.resume k now replies)).exchange =
      { ((start config).after events).exchange with
        settlement := (((start config).after events).settlement.perform
          (.rollback request.txid staged.poolKey)).2 } := by
    rw [step_resume now replies h, Stage.advance, Section.settlement_undo]
  have hsplit : events = earlier ++ .resume k stagedAt reply ::
      (between ++ .resume k signedAt signer :: afterwards) := by
    rw [hevents, hsigning, List.append_assoc, List.cons_append]
  have hkey : ((start config).after events).settlement.registry.addressForKey staged.poolKey =
      .ok staged.pool := by
    rw [hsplit, after_append]
    exact addressForKey_after (sound_after config earlier) hstages.keyed _
  have hcases := Settlement.rollback_cases (remembers_after config events) (room_pos config)
    hstages.named hkey
  refine ⟨calls_resume now replies h, ⟨signing, signedAt, signer, afterwards, hevents, hsigns,
    hreply⟩, ?_, ?_, ?_⟩
  · rw [settlement, hexchange]
    rcases hcases with ⟨-, hsettled, -⟩ | ⟨hsettled, hsame⟩
    · exact hsettled
    · dsimp only
      rw [hsame]
      exact hsettled
  · intro hpending
    rw [settlement, hexchange]
    rcases hcases with ⟨-, -, hstatus⟩ | ⟨hsettled, -⟩
    · exact hstatus
    · rw [hpending] at hsettled
      cases hsettled
  · intro hsettled
    rcases hcases with ⟨hpending, -, -⟩ | ⟨-, hsame⟩
    · rw [hpending] at hsettled
      cases hsettled
    · rw [settlement, hexchange, hsame]
      refine ⟨rfl, ?_⟩
      rw [hsplit] at hsettled ⊢
      exact exists_overtaken hstages hsettled

end Undoing

namespace Sample

open Settlement.Sample (txid token legA legB)

/-- The signer fails. -/
def mute : (q : Question) → Reply q
  | .signature _ _ => .error .keyFailure
  | q => replies q

def request : ExecuteRequest :=
  ⟨"00", (txid 2).text, ⟨"trader", [swap 0#64 legA.outpoint ⟨txid 2, 0#32⟩ (Coin.native 20000#64)
    ⟨token, 5#128⟩]⟩, 0#32, 0#32⟩

def staged : StagedExecution := ⟨txid 2, "pool", "untweaked", [utf8 "name"], [0]⟩

/-- A transaction is finalized while its signature is asked for, and then the signer fails. -/
def racing : List Event :=
  whole 0 (.createPool "name" token 100#128 "") 2 ++ whole 1 (.deposit "pool" legA legB) 2 ++
    whole 2 (.execute request) 1 ++ whole 3 (.finalize ⟨(txid 2).text, "untweaked"⟩) 0 ++
    [.resume 2 0#64 mute]

def raced : Session := (start config).after racing

end Sample

/-- Executions may be interleaved with one another and with all other calls. At every moment of a
session a slot is only filled by the staging section of an execution, when it is empty and for the
present nonce of its pool, and only emptied by a request that names its own transaction. An
execution that has not waited for the signer has changed nothing. One that the signer has refused
answers so and leaves its transaction resolved, as finalized where that came first. -/
theorem interleavings_safe (config : Config) (events : List Event) :
    let s := (start config).after events
    (∀ event p, s.SlotStep (s.step event) event p) ∧
    (∀ k now replies original request confirmed staged,
      s.calls[k]? = some (original, .run (.stage request confirmed)) →
      (s.step (.resume k now replies)).calls[k]? =
        some (original, .ask (.signature request staged)) →
      ∃ slot, s.Stages (s.step (.resume k now replies)) request staged slot) ∧
    (∀ earlier event later k request stage, events = earlier ++ event :: later →
      event.turn ((start config).after earlier) = k →
      s.calls[k]? = some (.execute request, stage) →
      (∀ before staged, before <+: events → ((start config).after before).calls[k]? ≠
        some (.execute request, .ask (.signature request staged))) →
      (((start config).after earlier).step event).exchange =
        ((start config).after earlier).exchange) ∧
    (∀ k now replies request staged refusal,
      s.calls[k]? = some (.execute request, .ask (.signature request staged)) →
      replies (.signature staged.path staged.payload) = .error refusal →
      (s.step (.resume k now replies)).calls[k]? =
        some (.execute request, .run (.undo request staged refusal))) ∧
    ∀ k now replies request staged refusal,
      s.calls[k]? = some (.execute request, .run (.undo request staged refusal)) →
      Undone config events k request staged refusal (s.step (.resume k now replies)) := by
  intro s
  have hsound := sound_after config events
  have hremembers := remembers_after config events
  refine ⟨slotStep hsound hremembers, ?_, ?_, ?_, ?_⟩
  · intro k now replies original request confirmed staged hstage hsigns
    rw [calls_resume now replies hstage] at hsigns
    rcases Section.run_stage_cases s.exchange request confirmed now with
      ⟨accepted, haccepted, hwaits⟩ | ⟨refusal, -, hrefused⟩
    · rw [Stage.advance, hwaits] at hsigns
      cases hsigns
      exact stages_of_accepted hsound hremembers hstage haccepted
    · rw [Stage.advance, hrefused] at hsigns
      cases hsigns
  · rintro earlier event later k request stage rfl hturn hcall hunstaged
    exact exchange_of_unstaged hturn hcall hunstaged
  · intro k now replies request staged refusal hsigns hreply
    rw [calls_resume now replies hsigns]
    simp only [Stage.advance, Inquiry.question, hreply, Inquiry.hear]
  · intro k now replies request staged refusal hstands
    exact undone hstands now replies

theorem interleavings_safe_sample :
    let next := Sample.raced.step (.resume 2 0#64 Sample.mute)
    Sample.raced.settlement.status? "pool" (Settlement.Sample.txid 2) =
        some (.resolved .finalized) ∧
      next.calls[2]? = some (.execute Sample.request, .answered (.error .keyFailure)) ∧
      next.exchange = Sample.raced.exchange := by
  obtain ⟨hstatus, hstands⟩ :
      Sample.raced.settlement.status? "pool" (Settlement.Sample.txid 2) =
        some (.resolved .finalized) ∧
      (Sample.raced.calls[2]?.map fun call => (call.1, call.2.section?)) =
        some (.execute Sample.request,
          some (.undo Sample.request Sample.staged .keyFailure)) := by
    decide +kernel
  obtain ⟨⟨original, stage⟩, hcall, hnext⟩ := Option.map_eq_some_iff.1 hstands
  obtain ⟨rfl, hsection⟩ := Prod.mk.inj hnext
  obtain rfl : stage = _ := Stage.eq_run_of_section? hsection
  obtain ⟨-, -, -, -, hundone⟩ := interleavings_safe Sample.config Sample.racing
  have h := hundone 2 0#64 Sample.mute Sample.request Sample.staged .keyFailure hcall
  have hsettled := (Settlement.status?_eq_resolved_iff.1 hstatus).1
  exact ⟨hstatus, h.answered, (h.kept hsettled).1⟩

end Session

end RuneSettlement
