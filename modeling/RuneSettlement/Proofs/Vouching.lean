import RuneSettlement.Proofs.Interleaving

/-!
# What the indexer has vouched for

A call carries along what it has learned from the rune indexer: an execution the tokens that are
confirmed, a deposit the legs that are still to be checked. Wherever a call stands, each of these
goes back to a reply that the call itself has got before (`Session.vouched_after`), whatever other
calls do meanwhile. The staging section compares the confirmed tokens with those that are new in the
state that it meets, so nothing that the indexer has not vouched for enters a pool
(`Session.entries_vouched`).
-/

namespace RuneSettlement

/-! ### Unknown tokens -/

lemma Coin.le_total {coins : List Coin} {coin : Coin} (h : coin ∈ coins) :
    coin.value.toNat ≤ total coins coin.id := by
  induction coins with
  | nil => cases h
  | cons first coins ih =>
    rw [total_cons]
    rcases List.mem_cons.1 h with rfl | hlater
    · rw [if_pos rfl]
      exact Nat.le_add_right _ _
    · exact Nat.le_trans (ih hlater) (Nat.le_add_left _ _)

lemma Reserves.mem_keys_of_amountOf {r : Reserves} {id : CoinId} (hid : id ≠ .native)
    (h : r.amountOf id ≠ 0#128) : id ∈ r.tokens.keys := by
  rw [amountOf, if_neg hid] at h
  cases hamount : r.tokens.get? id with
  | none => simp [hamount] at h
  | some amount => exact List.mem_map.2 ⟨_, SortedMap.get?_eq_some_iff.1 hamount, rfl⟩

namespace Rules

variable {rules : Rules} {registry : Registry} {i : Intention} {pool : Pool}

/-- An input of a token that the pool neither trades nor holds is unknown to the plan. -/
lemma mem_unknownTokens {set : IntentionSet} {index queueLength : BitVec 32} {plan : Plan}
    {coin : Coin} (h : rules.plan registry set index queueLength = .ok plan)
    (hselect : set.select index = .ok i) (hpool : registry.get? i.pool = some pool)
    (hcoin : coin ∈ i.inputCoins) (hnative : coin.id ≠ .native) (htoken : coin.id ≠ pool.token)
    (hnew : pool.reserves.amountOf coin.id = 0#128) : coin.id ∈ plan.unknownTokens := by
  unfold Rules.plan at h
  simp only [hselect, Outcome.bind_eq_ok_iff, Outcome.when_eq_ok_iff, Outcome.pure_eq_ok_iff,
    Except.ok.injEq, exists_eq_left'] at h
  obtain ⟨⟨action, found⟩, hjudge, inflow, hinflow, _, -, _, -, _, -, -, rfl⟩ := h
  obtain ⟨-, -, hcoins, hfound, -⟩ := judge_eq_ok_iff.1 hjudge
  obtain rfl : found = pool := Option.some.inj (hfound.symm.trans hpool)
  have hvalue := (hcoins coin (List.mem_append_left _ hcoin)).2
  have hamount : inflow.amountOf coin.id ≠ 0#128 := by
    have htotal := Reserves.toNat_amountOf_creditAll hinflow coin.id
    have hle := Coin.le_total hcoin
    rw [← BitVec.toNat_inj.ne] at hvalue ⊢
    simp only [BitVec.toNat_zero] at hvalue ⊢
    omega
  rw [List.mem_filter]
  exact ⟨Reserves.mem_keys_of_amountOf hnative hamount, decide_eq_true ⟨htoken, hnew⟩⟩

end Rules

lemma Plan.mem_confirmed {plan : Plan} {confirmed : List CoinId}
    (h : plan.checkConfirmed confirmed = .ok ()) : ∀ id ∈ plan.unknownTokens, id ∈ confirmed := by
  unfold checkConfirmed at h
  cases hfind : plan.unknownTokens.find? fun id => decide (id ∉ confirmed) with
  | some id =>
    rw [hfind] at h
    cases h
  | none => simpa using hfind

/-- An execution fills a slot only if the tokens that its plan does not know are confirmed. -/
lemma Settlement.Moves.checkConfirmed_of_execute {s s' : Settlement} {answer : Outcome Receipt}
    {request : ExecuteRequest} {confirmed : List CoinId} {now : Timestamp} {prepared : Prepared}
    {p : Address} (h : Moves s (.execute request confirmed now) answer s')
    (hprepared : s.prepare request now = .ok prepared)
    (hfills : s'.pendingOn? p ≠ s.pendingOn? p) :
    prepared.plan.checkConfirmed confirmed = .ok () := by
  cases h with
  | refused => exact absurd rfl hfills
  | staged checked known =>
    rw [checked] at hprepared
    cases hprepared
    exact known

/-! ### Replies of the indexer -/

/-- Whether a reply of the indexer leaves open what it was asked to confirm. -/
def Inquiry.Denied : (i : Inquiry) → Reply i.question → Prop
  | unknownToken _ _ _ _, reply => ∀ entry, reply ≠ .ok (some entry)
  | declaredCoin _ _ _ _ declared _, reply => ∀ coins, reply = .ok coins → declared ∉ coins
  | _, _ => False

/-- A call that is denied what it asks for answers with a refusal. -/
lemma Inquiry.exists_hear_eq_of_denied {i : Inquiry} {reply : Reply i.question}
    (h : i.Denied reply) : ∃ refusal, i.hear reply = .answered (.error refusal) := by
  cases i with
  | unknownToken request id later confirmed =>
    cases reply with
    | error refusal => exact ⟨refusal, rfl⟩
    | ok entry =>
      cases entry with
      | none => exact ⟨.runeNotFound id, rfl⟩
      | some entry => exact absurd rfl (h entry)
  | declaredCoin pool runeLeg nativeLeg outpoint declared later =>
    cases reply with
    | error refusal => exact ⟨refusal, rfl⟩
    | ok coins => exact ⟨notHeld outpoint declared, if_neg (h coins rfl)⟩
  | _ => exact h.elim

/-- Replies that a call has got. -/
abbrev Record := (q : Question) → Reply q → Prop

namespace Record

variable {heard heard' : Record}

/-- The indexer has an entry of the token. -/
def Knows (heard : Record) (id : CoinId) : Prop :=
  ∃ entry, heard (.runeEntry id) (.ok (some entry))

/-- The indexer has found the coin in the output. -/
def Finds (heard : Record) (outpoint : OutPoint) (coin : Coin) : Prop :=
  ∃ coins, heard (.outputCoins outpoint) (.ok coins) ∧ coin ∈ coins

lemma Knows.mono {id : CoinId} (h : heard.Knows id)
    (hsub : ∀ q reply, heard q reply → heard' q reply) : heard'.Knows id := by
  obtain ⟨entry, hentry⟩ := h
  exact ⟨entry, hsub _ _ hentry⟩

lemma Finds.mono {outpoint : OutPoint} {coin : Coin} (h : heard.Finds outpoint coin)
    (hsub : ∀ q reply, heard q reply → heard' q reply) : heard'.Finds outpoint coin := by
  obtain ⟨coins, hcoins, hmem⟩ := h
  exact ⟨coins, hsub _ _ hcoins, hmem⟩

end Record

namespace Stage

open Exchange (declaredCoins)

/-- The indexer has vouched for what a call carries along where it stands: for the confirmed tokens,
and for all legs but those that it is still to be asked for. -/
def Vouched (heard : Record) : Stage → Prop
  | run (.stage _ confirmed) => ∀ id ∈ confirmed, heard.Knows id
  | ask (.unknownToken _ _ _ confirmed) => ∀ id ∈ confirmed, heard.Knows id
  | run (.takeDeposit _ runeLeg nativeLeg) =>
    ∀ leg ∈ declaredCoins [runeLeg, nativeLeg], heard.Finds leg.1 leg.2
  | ask (.declaredCoin _ runeLeg nativeLeg outpoint declared later) =>
    ∀ leg ∈ declaredCoins [runeLeg, nativeLeg],
      leg ∈ (outpoint, declared) :: later ∨ heard.Finds leg.1 leg.2
  | _ => True

variable {heard heard' : Record} {stage : Stage}

lemma Vouched.mono (h : stage.Vouched heard) (hsub : ∀ q reply, heard q reply → heard' q reply) :
    stage.Vouched heard' := by
  cases stage with
  | answered result => trivial
  | run next =>
    cases next with
    | stage request confirmed => exact fun id hid => (h id hid).mono hsub
    | takeDeposit pool runeLeg nativeLeg => exact fun leg hleg => (h leg hleg).mono hsub
    | _ => trivial
  | ask inquiry =>
    cases inquiry with
    | unknownToken request id later confirmed => exact fun id hid => (h id hid).mono hsub
    | declaredCoin pool runeLeg nativeLeg outpoint declared later =>
      exact fun leg hleg => (h leg hleg).imp_right (·.mono hsub)
    | _ => trivial

lemma vouched_checkLegs {runeLeg nativeLeg : Utxo} {later : List (OutPoint × Coin)}
    (h : ∀ leg ∈ declaredCoins [runeLeg, nativeLeg], leg ∈ later ∨ heard.Finds leg.1 leg.2)
    (pool : Address) : (checkLegs pool runeLeg nativeLeg later).Vouched heard := by
  cases later with
  | nil =>
    intro leg hleg
    exact (h leg hleg).resolve_left List.not_mem_nil
  | cons next later => exact h

lemma vouched_confirmTokens {confirmed : List CoinId} (h : ∀ id ∈ confirmed, heard.Knows id)
    (request : ExecuteRequest) (later : List CoinId) :
    (confirmTokens request confirmed later).Vouched heard := by
  cases later with
  | nil => exact h
  | cons id later => exact h

/-- What a reply adds to what a call carries along is vouched for by the reply. -/
lemma vouched_hear {inquiry : Inquiry} {reply : Reply inquiry.question}
    (h : (ask inquiry).Vouched heard) (hheard : heard inquiry.question reply) :
    (inquiry.hear reply).Vouched heard := by
  cases inquiry with
  | primaryKeys path => cases reply <;> trivial
  | poolKeys name token depositAmount attributes => cases reply <;> trivial
  | signature request staged => cases reply <;> trivial
  | unknownToken request id later confirmed =>
    cases reply with
    | error refusal => trivial
    | ok entry =>
      cases entry with
      | none => trivial
      | some entry =>
        apply vouched_confirmTokens
        intro other hother
        rcases List.mem_append.1 hother with hold | hnew
        · exact h other hold
        · rw [List.mem_singleton.1 hnew]
          exact ⟨entry, hheard⟩
  | declaredCoin pool runeLeg nativeLeg outpoint declared later =>
    cases reply with
    | error refusal => trivial
    | ok coins =>
      simp only [Inquiry.hear]
      split
      · next hfound =>
        apply vouched_checkLegs
        intro leg hleg
        rcases h leg hleg with hasked | hfinds
        · rcases List.mem_cons.1 hasked with rfl | hlater
          · exact .inr ⟨coins, hheard, hfound⟩
          · exact .inl hlater
        · exact .inr hfinds
      · trivial

end Stage

lemma Exchange.vouched_begin (e : Exchange) (request : Request) (now : Timestamp) (heard : Record) :
    (e.begin request now).1.Vouched heard := by
  cases request with
  | deposit pool runeLeg nativeLeg =>
    apply Stage.vouched_checkLegs
    intro leg hleg
    exact .inl hleg
  | execute request =>
    simp only [begin]
    split
    · exact Stage.vouched_confirmTokens (by simp) request _
    · trivial
  | initKey =>
    simp only [begin]
    split <;> trivial
  | createPool name token depositAmount attributes =>
    simp only [begin]
    split
    · trivial
    · split <;> trivial
  | _ => trivial

lemma Section.vouched_run (next : Section) (now : Timestamp) (e : Exchange) (heard : Record) :
    (next.run now e).1.Vouched heard := by
  cases next with
  | stage request confirmed =>
    simp only [Section.run]
    split <;> trivial
  | _ => trivial

/-! ### What a call that waits for the indexer has done -/

/-- Whether a call waits for the indexer. -/
def Stage.AsksIndexer : Stage → Prop
  | ask (.unknownToken _ _ _ _) => True
  | ask (.declaredCoin _ _ _ _ _ _) => True
  | _ => False

/-- A call that waits for the indexer has changed nothing with its first section. -/
lemma Exchange.begin_of_asksIndexer {e : Exchange} {request : Request} {now : Timestamp}
    (h : (e.begin request now).1.AsksIndexer) : (e.begin request now).2 = e := by
  cases request with
  | deposit pool runeLeg nativeLeg => rfl
  | execute request =>
    simp only [begin]
    split <;> rfl
  | initKey =>
    simp only [begin]
    split <;> rfl
  | createPool name token depositAmount attributes =>
    simp only [begin]
    split
    · rfl
    · split <;> rfl
  | _ => exact h.elim

/-- A call comes to wait for the indexer only from another question to the indexer. -/
lemma Stage.asksIndexer_of_advance {stage : Stage} {now : Timestamp}
    {replies : (q : Question) → Reply q} {e : Exchange}
    (h : (stage.advance now replies e).1.AsksIndexer) : stage.AsksIndexer := by
  cases stage with
  | answered result => exact h
  | run next =>
    cases next with
    | stage request confirmed =>
      simp only [advance, Section.run] at h
      split at h <;> exact h
    | _ => exact h
  | ask inquiry =>
    cases inquiry with
    | unknownToken request id later confirmed => trivial
    | declaredCoin pool runeLeg nativeLeg outpoint declared later => trivial
    | primaryKeys path =>
      cases hreply : replies (.keys path) <;>
        simp only [advance, Inquiry.question, hreply, Inquiry.hear] at h <;> exact h
    | poolKeys name token depositAmount attributes =>
      cases hreply : replies (.keys [utf8 name]) <;>
        simp only [advance, Inquiry.question, hreply, Inquiry.hear] at h <;> exact h
    | signature request staged =>
      cases hreply : replies (.signature staged.path staged.payload) <;>
        simp only [advance, Inquiry.question, hreply, Inquiry.hear] at h <;> exact h

lemma Stage.advance_of_asksIndexer {stage : Stage} (h : stage.AsksIndexer) (now : Timestamp)
    (replies : (q : Question) → Reply q) (e : Exchange) : (stage.advance now replies e).2 = e := by
  cases stage with
  | ask inquiry => rfl
  | _ => exact h.elim

lemma Inquiry.asksIndexer_of_denied {i : Inquiry} {reply : Reply i.question} (h : i.Denied reply) :
    (Stage.ask i).AsksIndexer := by
  cases i <;> trivial

namespace Session

/-- Call `k` has asked a question and got the reply. -/
def Heard (config : Config) (events : List Event) (k : Nat) : Record := fun q reply =>
  ∃ earlier now replies later original inquiry, events = earlier ++ .resume k now replies :: later ∧
    ((start config).after earlier).calls[k]? = some (original, .ask inquiry) ∧
    inquiry.question = q ∧ replies q = reply

variable {config : Config} {events : List Event} {event : Event} {k : Nat} {original : Request}
  {stage : Stage}

lemma Heard.concat {q : Question} {reply : Reply q} (h : Heard config events k q reply)
    (event : Event) : Heard config (events ++ [event]) k q reply := by
  obtain ⟨earlier, now, replies, later, original, inquiry, rfl, hcall, hquestion, hreply⟩ := h
  refine ⟨earlier, now, replies, later ++ [event], original, inquiry, ?_, hcall, hquestion, hreply⟩
  rw [List.append_assoc, List.cons_append]

/-- Wherever a call stands, the indexer has vouched for what the call carries along. -/
theorem vouched_after (h : ((start config).after events).calls[k]? = some (original, stage)) :
    stage.Vouched (Heard config events k) := by
  induction events using List.reverseRecOn generalizing stage with
  | nil => cases h
  | append_singleton events event ih =>
    rw [after_concat] at h
    have hmono := fun q reply (hheard : Heard config events k q reply) => hheard.concat event
    by_cases hturn : event.turn ((start config).after events) = k
    · cases event with
      | begin request now =>
        obtain rfl : ((start config).after events).calls.length = k := hturn
        rw [calls_begin] at h
        cases h
        exact Exchange.vouched_begin _ _ now _
      | resume j now replies =>
        obtain rfl : j = k := hturn
        cases hbefore : ((start config).after events).calls[j]? with
        | none =>
          simp only [step, hbefore] at h
          cases h
        | some call =>
          obtain ⟨request, before⟩ := call
          rw [calls_resume now replies hbefore] at h
          cases h
          have hvouched := (ih hbefore).mono hmono
          cases before with
          | answered result => trivial
          | run next => exact Section.vouched_run next now _ _
          | ask inquiry =>
            apply Stage.vouched_hear hvouched
            exact ⟨events, now, replies, [], _, inquiry, rfl, hbefore, rfl, rfl⟩
    · rw [calls_step_of_ne hturn] at h
      exact (ih h).mono hmono

/-! ### What a call that is denied does -/

/-- No event of call `k` has changed the exchange. -/
def Untouched (config : Config) (events : List Event) (k : Nat) : Prop :=
  ∀ past event rest, events = past ++ event :: rest →
    event.turn ((start config).after past) = k →
    (((start config).after past).step event).exchange = ((start config).after past).exchange

lemma Untouched.concat (h : Untouched config events k)
    (hlast : event.turn ((start config).after events) = k →
      (((start config).after events).step event).exchange =
        ((start config).after events).exchange) :
    Untouched config (events ++ [event]) k := by
  intro past other rest hsplit hturn
  rcases List.eq_nil_or_concat rest with rfl | ⟨rest, last, rfl⟩
  · obtain ⟨rfl, hevent⟩ := List.append_inj' hsplit rfl
    cases hevent
    exact hlast hturn
  · rw [List.concat_eq_append, ← List.cons_append, ← List.append_assoc] at hsplit
    obtain ⟨hevents, -⟩ := List.append_inj' hsplit rfl
    exact h past other rest hevents hturn

/-- A call that has asked nothing but the indexer so far has changed nothing. -/
lemma untouched_of_asking
    (h : ∀ original stage, ((start config).after events).calls[k]? = some (original, stage) →
      stage.AsksIndexer) : Untouched config events k := by
  induction events using List.reverseRecOn with
  | nil =>
    intro past event rest hsplit
    simp at hsplit
  | append_singleton events event ih =>
    rw [after_concat] at h
    have hbefore : ∀ original stage,
        ((start config).after events).calls[k]? = some (original, stage) → stage.AsksIndexer := by
      intro original stage hstage
      by_cases hturn : event.turn ((start config).after events) = k
      · cases event with
        | begin request now =>
          obtain ⟨hlt, -⟩ := List.getElem?_eq_some_iff.1 hstage
          exact absurd hturn (Nat.ne_of_gt hlt)
        | resume j now replies =>
          obtain rfl : j = k := hturn
          have hnext := calls_resume now replies hstage
          exact Stage.asksIndexer_of_advance (h original _ hnext)
      · apply h original stage
        rw [calls_step_of_ne hturn]
        exact hstage
    apply (ih hbefore).concat
    intro hturn
    cases event with
    | begin request now =>
      obtain rfl : ((start config).after events).calls.length = k := hturn
      exact Exchange.begin_of_asksIndexer (h request _ (calls_begin _ request now))
    | resume j now replies =>
      obtain rfl : j = k := hturn
      cases hcall : ((start config).after events).calls[j]? with
      | none => simp only [step, hcall]
      | some call =>
        obtain ⟨original, stage⟩ := call
        rw [step_resume now replies hcall]
        exact Stage.advance_of_asksIndexer (hbefore original stage hcall) now replies _

/-- A call that has answered keeps its answer and changes nothing any more. -/
lemma untouched_of_answered {result : Outcome Answer} (huntouched : Untouched config events k)
    (hanswered : ((start config).after events).calls[k]? = some (original, .answered result))
    (later : List Event) :
    ((start config).after (events ++ later)).calls[k]? = some (original, .answered result) ∧
      Untouched config (events ++ later) k := by
  induction later using List.reverseRecOn with
  | nil =>
    rw [List.append_nil]
    exact ⟨hanswered, huntouched⟩
  | append_singleton later event ih =>
    obtain ⟨hcall, hpast⟩ := ih
    rw [← List.append_assoc, after_concat]
    by_cases hturn : event.turn ((start config).after (events ++ later)) = k
    · cases event with
      | begin request now =>
        obtain ⟨hlt, -⟩ := List.getElem?_eq_some_iff.1 hcall
        exact absurd hturn (Nat.ne_of_gt hlt)
      | resume j now replies =>
        obtain rfl : j = k := hturn
        refine ⟨calls_resume now replies hcall, hpast.concat fun _ => ?_⟩
        rw [step_resume now replies hcall]
        rfl
    · refine ⟨?_, hpast.concat fun hturn' => absurd hturn' hturn⟩
      rw [calls_step_of_ne hturn]
      exact hcall

/-- A call that was denied what it asks for has answered with a refusal and changes nothing. -/
lemma untouched_of_denied {earlier later : List Event} {now : Timestamp}
    {replies : (q : Question) → Reply q} {inquiry : Inquiry}
    (hcall : ((start config).after earlier).calls[k]? = some (original, .ask inquiry))
    (hdenied : inquiry.Denied (replies inquiry.question)) :
    (∃ refusal, ((start config).after (earlier ++ .resume k now replies :: later)).calls[k]? =
      some (original, .answered (.error refusal))) ∧
    Untouched config (earlier ++ .resume k now replies :: later) k := by
  have hasking : Untouched config earlier k := by
    apply untouched_of_asking
    intro other stage hstage
    rw [hcall] at hstage
    cases hstage
    exact Inquiry.asksIndexer_of_denied hdenied
  have hresumed : Untouched config (earlier ++ [.resume k now replies]) k := by
    apply hasking.concat
    intro _
    rw [step_resume now replies hcall]
    rfl
  obtain ⟨refusal, hhear⟩ := Inquiry.exists_hear_eq_of_denied hdenied
  have hanswered : ((start config).after (earlier ++ [.resume k now replies])).calls[k]? =
      some (original, .answered (.error refusal)) := by
    rw [after_concat, calls_resume now replies hcall, Stage.advance, hhear]
  obtain ⟨hkept, huntouched⟩ := untouched_of_answered hresumed hanswered later
  rw [← List.append_cons] at hkept huntouched
  exact ⟨⟨refusal, hkept⟩, huntouched⟩

/-! ### What enters a pool -/

/-- Only the last section of a deposit makes a deposit call. -/
lemma exists_takeDeposit_of_call? {s : Session} (hs : s.Sound) {p : Address} {legA legB : Utxo}
    (h : event.call? s = some (.deposit p legA legB)) :
    ∃ k now replies, event = .resume k now replies ∧
      s.calls[k]? = some (.deposit p legA legB, .run (.takeDeposit p legA legB)) := by
  cases event with
  | begin request now => cases request <;> cases h
  | resume k now replies =>
    obtain ⟨⟨original, stage⟩, hcall, hstage⟩ := Option.bind_eq_some_iff.1 h
    have hserves : stage.Serves original := hs _ (List.mem_of_getElem? hcall)
    cases hserves with
    | signature => cases hstage
    | undo => cases hstage
    | opens hopens =>
      cases hopens with
      | takeDeposit =>
        cases hstage
        exact ⟨k, now, replies, rfl, hcall⟩
      | registerPrimary =>
        simp only [Stage.call?, Section.call?] at hstage
        split at hstage <;> cases hstage
      | _ => cases hstage

/-- A slot is filled only by the staging section of an execution, when the tokens that are unknown
by then are confirmed. -/
lemma exists_staging_of_filled {s : Session} (hs : s.Sound) {p : Address}
    {slot : PendingTransaction} (hbefore : s.settlement.pendingOn? p ≠ some slot)
    (hafter : (s.step event).settlement.pendingOn? p = some slot) :
    ∃ k now replies request confirmed prepared, event = .resume k now replies ∧
      s.calls[k]? = some (.execute request, .run (.stage request confirmed)) ∧
      s.settlement.prepare request now = .ok prepared ∧
      prepared.plan.checkConfirmed confirmed = .ok () ∧
      slot = prepared.pendingTransaction request now ∧ prepared.plan.staged.address = p := by
  rcases moves_step hs event with ⟨-, hsame⟩ | ⟨call, hcall, hmove⟩
  · rw [hsame] at hafter
    exact absurd hafter hbefore
  · have hcases := hmove.pending_cases hafter
    rcases hcases with hheld | ⟨request, confirmed, now, prepared, rfl, hprepared, hslot, haddress⟩
    · exact absurd hheld hbefore
    · obtain ⟨k, replies, original, rfl, hstage⟩ := exists_stage_of_call? hcall
      have hserves : (Stage.run (.stage request confirmed)).Serves original :=
        hs _ (List.mem_of_getElem? hstage)
      obtain rfl : original = .execute request := by
        cases hserves with
        | opens hopens =>
          cases hopens
          rfl
      have hknown := hmove.checkConfirmed_of_execute hprepared fun hsame =>
        hbefore (hsame ▸ hafter)
      exact ⟨k, now, replies, request, confirmed, prepared, rfl, hstage, hprepared, hknown, hslot,
        haddress⟩

/-- Nothing unvouched enters a pool, however calls are interleaved. When a transaction is staged on a
pool, then for each input token that the pool neither trades nor holds at that moment the same call
has got an entry from the indexer before; and when a deposit is made, then for each leg with a rune
coin the same call has got a list for the outpoint of the leg that holds the coin. A call that was
denied what it asked for is refused, and none of its events has changed anything. -/
theorem entries_vouched (config : Config) (events : List Event) :
    let s := (start config).after events
    (∀ event p slot, s.settlement.pendingOn? p ≠ some slot →
      (s.step event).settlement.pendingOn? p = some slot →
      ∃ k now replies request confirmed i pool, event = .resume k now replies ∧
        s.calls[k]? = some (.execute request, .run (.stage request confirmed)) ∧
        slot.set = request.set ∧ slot.index = request.index ∧
        request.set.select request.index = .ok i ∧ i.pool = p ∧
        s.settlement.registry.get? p = some pool ∧
        ∀ coin ∈ i.inputCoins, coin.id ≠ .native → coin.id ≠ pool.token →
          pool.reserves.amountOf coin.id = 0#128 → (Heard config events k).Knows coin.id) ∧
    (∀ (event : Event) p legA legB, event.call? s = some (.deposit p legA legB) →
      ∃ k now replies, event = .resume k now replies ∧
        s.calls[k]? = some (.deposit p legA legB, .run (.takeDeposit p legA legB)) ∧
        ∀ leg ∈ [legA, legB], ∀ coin, leg.rune = some coin →
          (Heard config events k).Finds leg.outpoint coin) ∧
    ∀ earlier now replies later k original inquiry,
      events = earlier ++ .resume k now replies :: later →
      ((start config).after earlier).calls[k]? = some (original, .ask inquiry) →
      inquiry.Denied (replies inquiry.question) →
      (∃ refusal, s.calls[k]? = some (original, .answered (.error refusal))) ∧
      Untouched config events k := by
  intro s
  have hsound : s.Sound := sound_after config events
  have hfiled : s.settlement.registry.Filed := (remembers_after config events).consistent.filed
  refine ⟨?_, ?_, ?_⟩
  · intro event p slot hbefore hafter
    obtain ⟨k, now, replies, request, confirmed, prepared, hevent, hstage, hprepared, hknown, rfl,
      haddress⟩ := exists_staging_of_filled hsound hbefore hafter
    obtain ⟨_, -, -, -, -, hplan, -⟩ := Settlement.of_prepare_eq_ok hprepared
    obtain ⟨i, pool, _, hbasis⟩ := Rules.exists_basis hplan
    have hpool : i.pool = p := (Settlement.address_of_basis hfiled hbasis).symm.trans haddress
    have hvouched : ∀ id ∈ confirmed, (Heard config events k).Knows id := vouched_after hstage
    refine ⟨k, now, replies, request, confirmed, i, pool, hevent, hstage, rfl, rfl,
      hbasis.selected, hpool, hpool ▸ hbasis.committed, ?_⟩
    intro coin hcoin hnative htoken hnew
    have hunknown := Rules.mem_unknownTokens hplan hbasis.selected hbasis.committed hcoin hnative
      htoken hnew
    exact hvouched coin.id (Plan.mem_confirmed hknown coin.id hunknown)
  · intro event p legA legB hcall
    obtain ⟨k, now, replies, hevent, hstage⟩ := exists_takeDeposit_of_call? hsound hcall
    have hvouched : ∀ leg ∈ Exchange.declaredCoins [legA, legB],
        (Heard config events k).Finds leg.1 leg.2 := vouched_after hstage
    refine ⟨k, now, replies, hevent, hstage, ?_⟩
    intro leg hleg coin hcoin
    apply hvouched (leg.outpoint, coin)
    rw [Exchange.declaredCoins, List.mem_filterMap]
    exact ⟨leg, hleg, by rw [hcoin]; rfl⟩
  · rintro earlier now replies later k original inquiry rfl hcall hdenied
    exact untouched_of_denied hcall hdenied

namespace Sample

open Settlement.Sample (txid token legA legB)

def foreign : CoinId := .rune 900000#64 7#32

/-- The indexer knows every token. -/
def informed : (q : Question) → Reply q
  | .runeEntry id => .ok (some ⟨id, "foreign", 0#8, none⟩)
  | q => replies q

/-- The indexer finds no coins. -/
def blank : (q : Question) → Reply q
  | .outputCoins _ => .ok []
  | q => replies q

/-- Brings a token that the pool has never held, for five of the pool's own. -/
def bringing : ExecuteRequest :=
  ⟨"00", (txid 2).text, ⟨"trader", [{ swap 0#64 legA.outpoint ⟨txid 2, 0#32⟩ ⟨foreign, 7#128⟩
    ⟨token, 5#128⟩ with receives := [(OutPoint.mk (txid 2) 0#32).text,
      (OutPoint.mk (txid 2) 1#32).text] }]⟩, 0#32, 0#32⟩

/-- A deposit that the indexer denies, one that it confirms, and an execution that is about to stage
a token that the indexer knows. -/
def asking : List Event :=
  whole 0 (.createPool "name" token 100#128 "") 2 ++
    [.begin (.deposit "pool" legA legB) 0#64, .resume 1 0#64 blank] ++
    whole 2 (.deposit "pool" legA legB) 2 ++
    [.begin (.execute bringing) 0#64, .resume 3 0#64 informed]

end Sample

open Settlement.Sample (token legA legB) in
theorem entries_vouched_sample :
    let asked := (start Sample.config).after Sample.asking
    let depositing := Sample.asking.take 7
    asked.settlement.pendingOn? "pool" = none ∧
      (Heard Sample.config Sample.asking 3).Knows Sample.foreign ∧
      (Heard Sample.config depositing 2).Finds legA.outpoint ⟨token, 100#128⟩ ∧
      Untouched Sample.config Sample.asking 1 := by
  intro asked depositing
  obtain ⟨hidle, hfills, hnew⟩ :
      asked.settlement.pendingOn? "pool" = none ∧
      ((asked.step (.resume 3 0#64 Sample.informed)).settlement.pendingOn? "pool").isSome ∧
      (asked.settlement.registry.get? "pool").map (fun pool =>
        (pool.token, pool.reserves.amountOf Sample.foreign)) = some (token, 0#128) := by
    decide +kernel
  obtain ⟨hstaging, -, hdenied⟩ := entries_vouched Sample.config Sample.asking
  obtain ⟨-, hdeposits, -⟩ := entries_vouched Sample.config depositing
  refine ⟨hidle, ?_, ?_, ?_⟩
  · obtain ⟨slot, hslot⟩ := Option.isSome_iff_exists.1 hfills
    have hempty : asked.settlement.pendingOn? "pool" ≠ some slot := by simp [hidle]
    obtain ⟨k, now, replies, request, confirmed, i, pool, hevent, hstage, -, -, hselect, -, hpool,
      hvouched⟩ := hstaging _ "pool" slot hempty hslot
    cases hevent
    have hrequest : asked.calls[3]?.map Prod.fst = some (.execute Sample.bringing) := rfl
    rw [hstage] at hrequest
    cases hrequest
    cases hselect
    rw [hpool] at hnew
    obtain ⟨htoken, hnone⟩ := Prod.mk.inj (Option.some.inj hnew)
    apply hvouched ⟨Sample.foreign, 7#128⟩
    · simp [Sample.swap, Intention.inputCoins]
    · simp [Sample.foreign]
    · rw [htoken]
      simp [Sample.foreign, token]
    · exact hnone
  · have hcall : (Event.resume 2 0#64 Sample.replies).call?
        ((start Sample.config).after depositing) = some (.deposit "pool" legA legB) := rfl
    obtain ⟨_, _, _, hevent, -, hfinds⟩ := hdeposits _ "pool" legA legB hcall
    cases hevent
    exact hfinds legA (by simp) ⟨token, 100#128⟩ rfl
  · have hasks : ((start Sample.config).after (Sample.asking.take 4)).calls[1]? =
        some (.deposit "pool" legA legB, .ask (.declaredCoin "pool" legA legB legA.outpoint
          ⟨token, 100#128⟩ [])) := rfl
    have hblank : ∀ coins, Sample.blank (.outputCoins legA.outpoint) = .ok coins →
        ⟨token, 100#128⟩ ∉ coins := by
      rintro coins ⟨⟩
      simp
    exact (hdenied (Sample.asking.take 4) _ Sample.blank _ 1 _ _ rfl hasks hblank).2

end Session

end RuneSettlement
