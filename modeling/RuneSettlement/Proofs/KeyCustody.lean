import RuneSettlement.Proofs.Identity
import RuneSettlement.Proofs.Interleaving

/-!
# Keys of pools and their signatures

Where a key ring answers every question for keys and signatures, a pool has the keys of its own
derivation path in every state that a session reaches: the path is fixed when the keys are asked
for, and the pool carries them through all its transactions (`Session.custody_after`). A staged
transaction is signed along the path of its pool, so the signature verifies under the pool's tweaked
key (`Session.signatures_authorized`).
-/

namespace RuneSettlement

namespace Registry

lemma map_identity_insert {r : Registry} {address : Address} {old next : Pool}
    (hfound : r.get? address = some old) (hsame : next.identity = old.identity) (p : Address) :
    (get? { r with pools := r.pools.insert address next } p).map Pool.identity =
      (r.get? p).map Pool.identity := by
  rw [get?_insert]
  split
  · next hp =>
    subst hp
    rw [hfound, Option.map_some, Option.map_some, hsame]
  · rfl

/-- A pool that is there after a registration is the new one, or it was there before, elsewhere. -/
lemma get?_cases_of_register {r r' : Registry} {new pool : Pool} {p : Address}
    (hnew : r.register new = .ok r') (hpool : r'.get? p = some pool) :
    (p = new.address ∧ pool = new ∧ r.get? p = none) ∨
      (p ≠ new.address ∧ r.get? p = some pool) := by
  have hfree := (register_eq_ok_iff.1 hnew).1
  rw [get?_of_register hnew] at hpool
  split at hpool
  · next hp =>
    subst hp
    cases hpool
    exact .inl ⟨rfl, rfl, hfree⟩
  · next hp => exact .inr ⟨Ne.symm hp, hpool⟩

end Registry

namespace Settlement

variable {s s' : Settlement} {call : Call} {answer : Outcome Receipt}

/-- A call registers a pool, or every pool stays what it was registered as. -/
lemma Moves.registers_or_keeps (h : Moves s call answer s') (hs : s.Consistent) :
    (∃ name keys token depositAmount attributes,
      call = .registerPool name keys token depositAmount attributes ∧
      s.registry.register (.create name keys token depositAmount attributes) =
        .ok s'.registry) ∨
    ∀ p, (s'.registry.get? p).map Pool.identity = (s.registry.get? p).map Pool.identity := by
  cases h with
  | registered new => exact .inl ⟨_, _, _, _, _, rfl, new⟩
  | funded _ admitted | unrecorded _ admitted =>
    obtain ⟨_, _, hfound, -, -, -, hfund, rfl⟩ := Registry.deposit_eq_ok_iff.1 admitted
    exact .inr (Registry.map_identity_insert hfound (Pool.identity_of_fund hfund))
  | committed _ _ pending _ _ next _ =>
    obtain ⟨_, -, -, -, rfl⟩ := Registry.commit_eq_ok_iff.1 next
    obtain ⟨pool, hpool, hsucceeds⟩ := hs.exists_succeeds pending
    rw [← hs.staged_address pending] at hpool
    exact .inr (Registry.map_identity_insert hpool hsucceeds.identity_eq)
  | _ => exact .inr fun _ => rfl

lemma run_registerPool (s : Settlement) (pool : Pool) :
    (Settlement.registerPool pool).run.run s =
      match s.registry.register pool with
      | .ok registry => (.ok (), { s with registry })
      | .error refusal => (.error refusal, s) := by
  simp only [Settlement.registerPool, run_bind, run_get, run_ofOutcome, run_set]
  cases s.registry.register pool <;> rfl

end Settlement

namespace Exchange

/-- The pool that an exchange registers as its primary one. -/
def primaryPool (e : Exchange) (keys : PoolKeys) : Pool :=
  .create e.config.poolName keys e.config.runeId e.config.depositAmount ""

@[simp] lemma address_primaryPool (e : Exchange) (keys : PoolKeys) :
    (e.primaryPool keys).address = keys.address := rfl

/-- Without a primary pool the registry decides whether there will be one. -/
lemma registerPrimary_eq {e : Exchange} (h : e.primary = none) (keys : PoolKeys) :
    e.registerPrimary keys =
      match e.settlement.registry.register (e.primaryPool keys) with
      | .ok registry =>
        (.ok (.address keys.address),
          { e with
            settlement := { e.settlement with registry }
            primary := some keys.address })
      | .error refusal => (.error refusal, e) := by
  have hfree : ¬e.primary.isSome = true := by rw [h]; exact Bool.false_ne_true
  rw [registerPrimary, if_neg hfree]
  simp only [settle_eq, Settlement.run_registerPool, primaryPool]
  cases e.settlement.registry.register
    (.create e.config.poolName keys e.config.runeId e.config.depositAmount "") <;> rfl

lemma registerPrimary_of_some {e : Exchange} {p : Address} (h : e.primary = some p)
    (keys : PoolKeys) : e.registerPrimary keys = (.error alreadyInitialized, e) := by
  rw [registerPrimary, if_pos]
  rw [h]
  rfl

lemma primary_begin (e : Exchange) (request : Request) (now : Timestamp) :
    (e.begin request now).2.primary = e.primary := by
  cases request with
  | initKey =>
    simp only [begin]
    split <;> rfl
  | createPool name token depositAmount attributes =>
    simp only [begin]
    split
    · rfl
    · split <;> rfl
  | execute request =>
    simp only [begin]
    split <;> rfl
  | _ => rfl

end Exchange

lemma Stage.primary_advance {stage : Stage} (e : Exchange) (now : Timestamp)
    (replies : (q : Question) → Reply q) (h : ∀ keys, stage ≠ .run (.registerPrimary keys)) :
    (stage.advance now replies e).2.primary = e.primary := by
  cases stage with
  | ask inquiry => rfl
  | answered result => rfl
  | run next =>
    cases next with
    | registerPrimary keys => exact absurd rfl (h keys)
    | registerPool pool => rfl
    | takeDeposit pool runeLeg nativeLeg => rfl
    | stage request confirmed => rw [advance, Section.settlement_stage]
    | undo request staged refusal => rw [advance, Section.settlement_undo]

namespace Exchange

/-- All that an event can do to the pools of an exchange, by the section that it runs. -/
inductive Enrols (e e' : Exchange) (next : Option Section) : Prop
  | kept (primary : e'.primary = e.primary)
      (pools : ∀ p, (e'.settlement.registry.get? p).map Pool.identity =
        (e.settlement.registry.get? p).map Pool.identity)
  | primary {keys : PoolKeys} (runs : next = some (.registerPrimary keys))
      (unset : e.primary = none) (primary : e'.primary = some keys.address)
      (registered : e.settlement.registry.register (e.primaryPool keys) =
        .ok e'.settlement.registry)
  | pool {pool : Pool} (runs : next = some (.registerPool pool)) (primary : e'.primary = e.primary)
      (registered : e.settlement.registry.register pool = .ok e'.settlement.registry)

lemma enrols_refl (e : Exchange) (next : Option Section) : e.Enrols e next :=
  .kept rfl fun _ => rfl

lemma enrols_registerPrimary (e : Exchange) (keys : PoolKeys) :
    e.Enrols (e.registerPrimary keys).2 (some (.registerPrimary keys)) := by
  cases hprimary : e.primary with
  | some p =>
    rw [registerPrimary_of_some hprimary]
    exact e.enrols_refl _
  | none =>
    rw [registerPrimary_eq hprimary]
    cases hregister : e.settlement.registry.register (e.primaryPool keys) with
    | ok registry => exact .primary rfl hprimary rfl hregister
    | error refusal => exact e.enrols_refl _

lemma enrols_registerPool (e : Exchange) (pool : Pool) (now : Timestamp) :
    e.Enrols ((Section.registerPool pool).run now e).2 (some (.registerPool pool)) := by
  have hrun : ((Section.registerPool pool).run now e).2 =
      { e with settlement := ((Settlement.registerPool pool).run.run e.settlement).2 } := rfl
  rw [hrun, Settlement.run_registerPool]
  cases hregister : e.settlement.registry.register pool with
  | ok registry => exact .pool rfl rfl hregister
  | error refusal => exact e.enrols_refl _

end Exchange

namespace Session

/-- The section that an event runs after the first one of its call. -/
def Event.section? (s : Session) : Event → Option Section
  | begin _ _ => none
  | resume k _ _ => s.calls[k]?.bind fun call => call.2.section?

variable {s : Session}

/-- A call to the settlement that registers a pool comes from one of the two sections for it. -/
lemma exists_section_of_call? {event : Event} {name attributes : String} {keys : PoolKeys}
    {token : CoinId} {depositAmount : Amount}
    (h : event.call? s = some (.registerPool name keys token depositAmount attributes)) :
    (∃ keys, event.section? s = some (.registerPrimary keys)) ∨
      ∃ pool, event.section? s = some (.registerPool pool) := by
  cases event with
  | begin request now => cases request <;> cases h
  | resume k now replies =>
    obtain ⟨⟨original, stage⟩, hcall, hstage⟩ := Option.bind_eq_some_iff.1 h
    cases stage with
    | ask inquiry => cases hstage
    | answered result => cases hstage
    | run next =>
      have hsection : (Event.resume k now replies).section? s = some next := by
        rw [Event.section?, hcall]
        rfl
      cases next with
      | registerPrimary keys => exact .inl ⟨keys, hsection⟩
      | registerPool pool => exact .inr ⟨pool, hsection⟩
      | _ => cases hstage

/-- What an event does to the pools of the exchange. -/
lemma enrols_step (hs : s.Sound) (hconsistent : s.settlement.Consistent) (event : Event) :
    s.exchange.Enrols (s.step event).exchange (event.section? s) := by
  by_cases hregisters : (∃ keys, event.section? s = some (.registerPrimary keys)) ∨
      ∃ pool, event.section? s = some (.registerPool pool)
  · cases event with
    | begin request now =>
      rcases hregisters with ⟨keys, hnext⟩ | ⟨pool, hnext⟩
      · cases hnext
      · cases hnext
    | resume k now replies =>
      rcases hregisters with ⟨keys, hnext⟩ | ⟨pool, hnext⟩
      · obtain ⟨⟨original, stage⟩, hcall, hstage⟩ := Option.bind_eq_some_iff.1 hnext
        obtain rfl := Stage.eq_run_of_section? hstage
        rw [hnext, step_resume now replies hcall]
        exact s.exchange.enrols_registerPrimary keys
      · obtain ⟨⟨original, stage⟩, hcall, hstage⟩ := Option.bind_eq_some_iff.1 hnext
        obtain rfl := Stage.eq_run_of_section? hstage
        rw [hnext, step_resume now replies hcall]
        exact s.exchange.enrols_registerPool pool now
  · refine .kept ?_ ?_
    · cases event with
      | begin request now => exact s.exchange.primary_begin request now
      | resume k now replies =>
        cases hcall : s.calls[k]? with
        | none => rw [step, hcall]
        | some call =>
          rw [step_resume now replies hcall]
          apply Stage.primary_advance
          rintro keys hstage
          apply hregisters
          refine .inl ⟨keys, ?_⟩
          rw [Event.section?, hcall, Option.bind_some, hstage]
          rfl
    · rcases moves_step hs event with ⟨-, hsame⟩ | ⟨call, hcall, hmove⟩
      · intro p
        rw [← settlement, hsame]
      · rcases hmove.registers_or_keeps hconsistent with ⟨_, _, _, _, _, rfl, -⟩ | hkeeps
        · exact absurd (exists_section_of_call? hcall) hregisters
        · exact hkeeps

end Session

/-! ### Keys that come from a ring -/

/-- The replies of a key service that is a key ring. The indexer may reply anything. -/
structure KeyRing.Answers (ring : KeyRing) (replies : (q : Question) → Reply q) : Prop where
  keys : ∀ path, replies (.keys path) = .ok (ring.derive path)
  signature : ∀ path message, replies (.signature path message) = .ok (ring.sign path message)

/-- The derivation path of a registered pool: the reward token for the primary pool, and the name of
the pool for any other. -/
def Exchange.derivationPath (e : Exchange) (p : Address) (pool : Pool) : DerivationPath :=
  if e.primary = some p then [e.config.runeId.toBytes] else [utf8 pool.name]

namespace Stage

variable {ring : KeyRing} {config : Config} {stage : Stage}

/-- Keys that a call is about to register are those of the pool's own path. -/
def Carries (ring : KeyRing) (config : Config) : Stage → Prop
  | ask (.primaryKeys path) => path = [config.runeId.toBytes]
  | run (.registerPrimary keys) => keys = ring.derive [config.runeId.toBytes]
  | run (.registerPool pool) => pool.keys = ring.derive [utf8 pool.name]
  | _ => True

lemma carries_checkLegs (pool : Address) (runeLeg nativeLeg : Utxo)
    (later : List (OutPoint × Coin)) :
    (checkLegs pool runeLeg nativeLeg later).Carries ring config := by
  cases later <;> trivial

lemma carries_confirmTokens (request : ExecuteRequest) (confirmed later : List CoinId) :
    (confirmTokens request confirmed later).Carries ring config := by
  cases later <;> trivial

lemma Carries.hear {inquiry : Inquiry} {replies : (q : Question) → Reply q}
    (h : (ask inquiry).Carries ring config) (hring : ring.Answers replies) :
    (inquiry.hear (replies inquiry.question)).Carries ring config := by
  cases inquiry with
  | primaryKeys path =>
    obtain rfl : path = [config.runeId.toBytes] := h
    simp only [Inquiry.question, hring.keys]
    rfl
  | poolKeys name token depositAmount attributes =>
    simp only [Inquiry.question, hring.keys]
    rfl
  | declaredCoin pool runeLeg nativeLeg outpoint declared later =>
    simp only [Inquiry.question]
    cases replies (.outputCoins outpoint) with
    | error refusal => trivial
    | ok coins =>
      simp only [Inquiry.hear]
      split
      · exact carries_checkLegs ..
      · trivial
  | unknownToken request id later confirmed =>
    simp only [Inquiry.question]
    cases replies (.runeEntry id) with
    | error refusal => trivial
    | ok entry =>
      cases entry with
      | none => trivial
      | some entry => exact carries_confirmTokens ..
  | signature request staged =>
    simp only [Inquiry.question, hring.signature]
    trivial

lemma carries_run (next : Section) (now : Timestamp) (e : Exchange) :
    (next.run now e).1.Carries ring config := by
  cases next with
  | stage request confirmed =>
    rcases Section.run_stage_cases e request confirmed now with ⟨_, -, hnext⟩ | ⟨_, -, hnext⟩
    · rw [hnext]
      trivial
    · rw [hnext]
      trivial
  | _ => trivial

lemma Carries.advance {replies : (q : Question) → Reply q} (h : stage.Carries ring config)
    (hring : ring.Answers replies) (now : Timestamp) (e : Exchange) :
    (stage.advance now replies e).1.Carries ring config := by
  cases stage with
  | run next => exact carries_run next now e
  | ask inquiry => exact h.hear hring
  | answered result => trivial

lemma carries_begin (e : Exchange) (request : Request) (now : Timestamp) :
    (e.begin request now).1.Carries ring e.config := by
  cases request with
  | initKey =>
    simp only [Exchange.begin]
    split
    · trivial
    · rfl
  | createPool name token depositAmount attributes =>
    simp only [Exchange.begin]
    split
    · trivial
    · split <;> trivial
  | deposit pool runeLeg nativeLeg => exact carries_checkLegs ..
  | execute request =>
    simp only [Exchange.begin]
    split
    · exact carries_confirmTokens ..
    · trivial
  | _ => trivial

end Stage

namespace Session

/-- All keys in a session are the ring's own: those of the pools, and those that calls are about to
register. -/
structure Custody (s : Session) (ring : KeyRing) (config : Config) : Prop where
  configured : s.exchange.config = config
  primary : ∀ p, s.exchange.primary = some p →
    ∃ pool, s.settlement.registry.get? p = some pool
  keys : ∀ p pool, s.settlement.registry.get? p = some pool →
    pool.keys = ring.derive (s.exchange.derivationPath p pool)
  calls : ∀ call ∈ s.calls, call.2.Carries ring config

/-- The replies that come with an event are a key ring's. -/
def Event.AnsweredBy (ring : KeyRing) : Event → Prop
  | begin _ _ => True
  | resume _ _ replies => ring.Answers replies

section Steps

variable {s : Session} {ring : KeyRing} {config : Config} {event : Event}

lemma Custody.calls_step (h : s.Custody ring config) (hring : event.AnsweredBy ring) :
    ∀ call ∈ (s.step event).calls, call.2.Carries ring config := by
  intro call hcall
  cases event with
  | begin request now =>
    rcases List.mem_append.1 hcall with hold | hnew
    · exact h.calls call hold
    · rw [List.mem_singleton.1 hnew, ← h.configured]
      exact Stage.carries_begin s.exchange request now
  | resume k now replies =>
    cases hstage : s.calls[k]? with
    | none =>
      rw [step, hstage] at hcall
      exact h.calls call hcall
    | some waiting =>
      rw [step_resume now replies hstage] at hcall
      rcases List.mem_or_eq_of_mem_set hcall with hold | rfl
      · exact h.calls call hold
      · exact (h.calls waiting (List.mem_of_getElem? hstage)).advance hring now s.exchange

/-- The section that an event runs carries the keys of the pool's own path. -/
lemma Custody.carries_section (h : s.Custody ring config) {next : Section}
    (hnext : event.section? s = some next) : (Stage.run next).Carries ring config := by
  cases event with
  | begin request now => cases hnext
  | resume k now replies =>
    obtain ⟨call, hcall, hstage⟩ := Option.bind_eq_some_iff.1 hnext
    rw [← Stage.eq_run_of_section? hstage]
    exact h.calls call (List.mem_of_getElem? hcall)

/-- An event leaves all keys the ring's own. -/
lemma Custody.step (h : s.Custody ring config) (hs : s.Sound)
    (hconsistent : s.settlement.Consistent) (hring : event.AnsweredBy ring) :
    (s.step event).Custody ring config := by
  have hconfig : (s.step event).exchange.config = s.exchange.config :=
    (follows_step hs event).config
  suffices hpools :
      (∀ p, (s.step event).exchange.primary = some p →
        ∃ pool, (s.step event).settlement.registry.get? p = some pool) ∧
      ∀ p pool, (s.step event).settlement.registry.get? p = some pool →
        pool.keys = ring.derive ((s.step event).exchange.derivationPath p pool) from
    ⟨hconfig.trans h.configured, hpools.1, hpools.2, h.calls_step hring⟩
  cases enrols_step hs hconsistent event with
  | kept primary pools =>
    constructor
    · intro p hp
      obtain ⟨pool, hpool⟩ := h.primary p (primary ▸ hp)
      have hidentity := pools p
      rw [hpool, Option.map_some] at hidentity
      obtain ⟨later, hlater, -⟩ := Option.map_eq_some_iff.1 hidentity
      exact ⟨later, hlater⟩
    · intro p later hlater
      have hidentity := pools p
      rw [hlater, Option.map_some] at hidentity
      obtain ⟨pool, hpool, hsame⟩ := Option.map_eq_some_iff.1 hidentity.symm
      have hkeys : pool.keys = later.keys := congrArg PoolIdentity.keys hsame
      have hname : pool.name = later.name := congrArg PoolIdentity.name hsame
      have hpath : (s.step event).exchange.derivationPath p later =
          s.exchange.derivationPath p pool := by
        rw [Exchange.derivationPath, Exchange.derivationPath, primary, hconfig, hname]
      rw [hpath, ← hkeys]
      exact h.keys p pool hpool
  | @primary keys runs unset primary registered =>
    have hown : keys = ring.derive [config.runeId.toBytes] := h.carries_section runs
    constructor
    · intro p hp
      rw [primary] at hp
      cases hp
      have hget := Registry.get?_of_register registered keys.address
      rw [Exchange.address_primaryPool, if_pos rfl] at hget
      exact ⟨_, hget⟩
    · intro p pool hpool
      rcases Registry.get?_cases_of_register registered hpool with ⟨rfl, rfl, -⟩ | ⟨hother, hold⟩
      · rw [Exchange.address_primaryPool, Exchange.derivationPath, if_pos primary, hconfig,
          h.configured]
        exact hown
      · have hkeys := h.keys p pool hold
        rw [Exchange.derivationPath, unset, if_neg (by rintro ⟨⟩)] at hkeys
        rw [Exchange.derivationPath, primary, if_neg]
        · exact hkeys
        · intro hp
          exact hother (Option.some.inj hp).symm
  | @pool new runs primary registered =>
    have hown : new.keys = ring.derive [utf8 new.name] := h.carries_section runs
    constructor
    · intro p hp
      obtain ⟨pool, hpool⟩ := h.primary p (primary ▸ hp)
      have hget := Registry.get?_of_register registered p
      split at hget
      · exact ⟨_, hget⟩
      · exact ⟨pool, hget.trans hpool⟩
    · intro p pool hpool
      rcases Registry.get?_cases_of_register registered hpool with ⟨rfl, rfl, hfree⟩ | ⟨-, hold⟩
      · rw [Exchange.derivationPath, primary, if_neg]
        · exact hown
        · intro hp
          obtain ⟨old, hold⟩ := h.primary _ hp
          rw [hfree] at hold
          cases hold
      · have hkeys := h.keys p pool hold
        rw [Exchange.derivationPath] at hkeys ⊢
        rw [primary, hconfig]
        exact hkeys

end Steps

/-- In every state of a session that a key ring answers, all keys are the ring's own. -/
lemma custody_after {ring : KeyRing} (config : Config) {events : List Event}
    (hring : ∀ event ∈ events, event.AnsweredBy ring) :
    ((start config).after events).Custody ring config := by
  induction events using List.reverseRecOn with
  | nil =>
    refine ⟨rfl, ?_, ?_, ?_⟩
    · intro p hp
      cases hp
    · intro p pool hpool
      cases hpool
    · intro call hcall
      cases hcall
  | append_singleton events event ih =>
    have hearlier : ((start config).after events).Custody ring config := by
      apply ih
      intro earlier hmem
      exact hring earlier (List.mem_append_left _ hmem)
    have hlast : event.AnsweredBy ring := hring event (List.mem_append_right _ (.head _))
    rw [after_concat]
    exact hearlier.step (sound_after config events) (remembers_after config events).consistent
      hlast

end Session

/-! ### Signatures -/

namespace Ed25519

lemma length_encode (a : Point) : a.encode.length = 32 := by
  simp only [Point.encode, Bytes.length_ofNatLE]

lemma length_sign (secret message : Bytes) : (sign secret message).length = 64 := by
  rw [sign, List.length_append, length_encode, Bytes.length_ofNatLE]

/-- What signatures are for: the one that a secret makes for a message passes under the public key
of the secret. -/
def VerifiesOwn (secret message : Bytes) : Prop :=
  verify (publicKey secret) message (sign secret message) = true

instance (secret message : Bytes) : Decidable (VerifiesOwn secret message) :=
  inferInstanceAs (Decidable (_ = _))

end Ed25519

namespace KeyRing

lemma verifySignature_of_verify {message signature : Bytes} (key : FixedBytes 32)
    (h : Ed25519.verify key.toList message signature = true) :
    verifySignature (Hex.encode key.toList) message signature = .ok () := by
  simp only [verifySignature, Outcome.bind_eq_ok_iff, Outcome.ofOption_eq_ok_iff]
  refine ⟨key, Hex.decodeFixed?_encode key, ?_⟩
  rw [if_pos h]
  rfl

lemma verifySignature_sign {ring : KeyRing} {path : DerivationPath} {message : Bytes}
    (h : Ed25519.VerifiesOwn (ring.tweakedSecret path) message) :
    verifySignature (ring.derive path).tweaked message (ring.sign path message) = .ok () :=
  verifySignature_of_verify ⟨Ed25519.publicKey (ring.tweakedSecret path), Ed25519.length_encode _⟩ h

end KeyRing

lemma Settlement.decodePayload_eq_ok_iff {text : String} {payload : Bytes} :
    decodePayload text = .ok payload ↔ Hex.decode text = .ok payload ∧ payload ≠ [] := by
  unfold decodePayload
  cases Hex.decode text with
  | error fault => simp
  | ok bytes =>
    cases bytes with
    | nil =>
      simp only [reduceCtorEq, Except.ok.injEq, false_iff]
      rintro ⟨rfl, hne⟩
      exact hne rfl
    | cons byte bytes =>
      simp only [Except.ok.injEq]
      refine ⟨?_, And.left⟩
      rintro rfl
      exact ⟨rfl, List.cons_ne_nil _ _⟩

namespace Session

section Signing

variable {ring : KeyRing} {config : Config} {events : List Event} {k : Nat}
  {request : ExecuteRequest}

/-- An execution does not succeed at once. -/
lemma begin_execute_ne {e : Exchange} {now : Timestamp} {answer : Answer} :
    (e.begin (.execute request) now).1 ≠ .answered (.ok answer) := by
  simp only [Exchange.begin]
  split
  · next prepared _ =>
    cases prepared.plan.unknownTokens <;> rintro ⟨⟩
  · rintro ⟨⟩

/-- Only a signature lets an execution succeed. -/
lemma advance_execute_cases {stage : Stage} {e : Exchange} {now : Timestamp}
    {replies : (q : Question) → Reply q} {answer : Answer}
    (hserves : stage.Serves (.execute request))
    (h : (stage.advance now replies e).1 = .answered (.ok answer)) :
    stage = .answered (.ok answer) ∨ ∃ staged signature,
      stage = .ask (.signature request staged) ∧
      replies (.signature staged.path staged.payload) = .ok signature ∧
      answer = .signed (Hex.encode (staged.payload ++ signature)) := by
  cases hserves with
  | undo => cases h
  | @signature _ staged =>
    simp only [Stage.advance, Inquiry.question] at h
    cases hreply : replies (.signature staged.path staged.payload) with
    | error refusal =>
      rw [hreply] at h
      cases h
    | ok signature =>
      rw [hreply] at h
      cases h
      exact .inr ⟨staged, signature, rfl, hreply, rfl⟩
  | opens hopens =>
    cases hopens with
    | answered => exact .inl h
    | @stage _ confirmed =>
      rw [Stage.advance] at h
      rcases Section.run_stage_cases e request confirmed now with ⟨_, -, hnext⟩ | ⟨_, -, hnext⟩
      · rw [hnext] at h
        cases h
      · rw [hnext] at h
        cases h
    | @unknownToken _ id later confirmed =>
      simp only [Stage.advance, Inquiry.question] at h
      cases hreply : replies (.runeEntry id) with
      | error refusal =>
        rw [hreply] at h
        cases h
      | ok entry =>
        rw [hreply] at h
        cases entry with
        | none => cases h
        | some entry => cases later <;> cases h

/-- An execution that has succeeded has waited for the signature that it answers. -/
lemma exists_signing {answer : Answer}
    (h : ((start config).after events).calls[k]? =
      some (.execute request, .answered (.ok answer))) :
    ∃ earlier now replies later staged signature,
      events = earlier ++ .resume k now replies :: later ∧
      ((start config).after earlier).calls[k]? =
        some (.execute request, .ask (.signature request staged)) ∧
      replies (.signature staged.path staged.payload) = .ok signature ∧
      answer = .signed (Hex.encode (staged.payload ++ signature)) := by
  induction events using List.reverseRecOn with
  | nil => cases h
  | append_singleton events event ih =>
    suffices hearlier : ((start config).after events).calls[k]? =
          some (.execute request, .answered (.ok answer)) ∨
        ∃ now replies staged signature, event = .resume k now replies ∧
          ((start config).after events).calls[k]? =
            some (.execute request, .ask (.signature request staged)) ∧
          replies (.signature staged.path staged.payload) = .ok signature ∧
          answer = .signed (Hex.encode (staged.payload ++ signature)) by
      rcases hearlier with hanswered | ⟨now, replies, staged, signature, rfl, hwaits⟩
      · obtain ⟨earlier, now, replies, later, staged, signature, rfl, hsigning⟩ := ih hanswered
        refine ⟨earlier, now, replies, later ++ [event], staged, signature, ?_, hsigning⟩
        rw [List.append_assoc, List.cons_append]
      · exact ⟨events, now, replies, [], staged, signature, rfl, hwaits⟩
    rw [after_concat] at h
    by_cases hturn : event.turn ((start config).after events) = k
    · cases event with
      | begin original now =>
        obtain rfl : ((start config).after events).calls.length = k := hturn
        rw [calls_begin, Option.some.injEq, Prod.mk.injEq] at h
        obtain ⟨rfl, hanswered⟩ := h
        exact absurd hanswered begin_execute_ne
      | resume j now replies =>
        obtain rfl : j = k := hturn
        cases hcall : ((start config).after events).calls[j]? with
        | none =>
          rw [step, hcall] at h
          dsimp only at h
          rw [hcall] at h
          cases h
        | some call =>
          obtain ⟨original, stage⟩ := call
          rw [calls_resume now replies hcall, Option.some.injEq, Prod.mk.injEq] at h
          obtain ⟨rfl, hanswered⟩ := h
          have hserves : stage.Serves (.execute request) :=
            sound_after config events _ (List.mem_of_getElem? hcall)
          rcases advance_execute_cases hserves hanswered with
            rfl | ⟨staged, signature, rfl, hsigned⟩
          · exact .inl rfl
          · exact .inr ⟨now, replies, staged, signature, rfl, rfl, hsigned⟩
    · rw [calls_step_of_ne hturn] at h
      exact .inl h

/-- A registered pool stays, with what it was registered with. -/
lemma exists_identity_eq_after {past : List Event} {p : Address} {pool : Pool}
    (hpool : ((start config).after past).settlement.registry.get? p = some pool)
    (events : List Event) :
    ∃ kept, ((start config).after (past ++ events)).settlement.registry.get? p = some kept ∧
      kept.identity = pool.identity := by
  induction events using List.reverseRecOn with
  | nil =>
    rw [List.append_nil]
    exact ⟨pool, hpool, rfl⟩
  | append_singleton events event ih =>
    obtain ⟨kept, hkept, hsame⟩ := ih
    rw [← List.append_assoc, after_concat]
    rcases moves_step (sound_after config (past ++ events)) event with
      ⟨-, hstays⟩ | ⟨call, -, hmove⟩
    · rw [hstays]
      exact ⟨kept, hkept, hsame⟩
    · have hchange := hmove.change (remembers_after config (past ++ events)).consistent
      obtain ⟨later, hlater, hkeeps⟩ := hchange.exists_identity_eq hkept
      exact ⟨later, hlater, hkeeps.trans hsame⟩

/-- Call `k` stages a payload on the pool at an address when the next event of a session happens. -/
structure StagesPayload (s : Session) (event : Event) (k : Nat) (request : ExecuteRequest)
    (p : Address) (payload : Bytes) : Prop where
  stands : ∃ confirmed, s.calls[k]? = some (.execute request, .run (.stage request confirmed))
  idle : s.settlement.pendingOn? p = none
  holds : ∃ slot, (s.step event).settlement.pendingOn? p = some slot ∧ slot.payload = payload

/-- A call that waits for the signer has staged what is to be signed, along the path of its pool. -/
lemma exists_stagesPayload {staged : StagedExecution}
    (hring : ∀ event ∈ events, event.AnsweredBy ring)
    (h : ((start config).after events).calls[k]? =
      some (.execute request, .ask (.signature request staged))) :
    ∃ earlier event later i pool,
      events = earlier ++ event :: later ∧
      ((start config).after earlier).StagesPayload event k request i.pool staged.payload ∧
      request.set.select request.index = .ok i ∧
      Settlement.decodePayload request.payload = .ok staged.payload ∧
      ((start config).after events).settlement.registry.get? i.pool = some pool ∧
      pool.keys = ring.derive staged.path := by
  obtain ⟨earlier, now, replies, later, confirmed, rfl, hstands, haccepted⟩ := exists_accepted h
  obtain ⟨prepared, hprepared, -, rfl, hperformed⟩ :=
    Settlement.exists_prepared (Prod.ext haccepted rfl)
  obtain ⟨i, pool, post, hbasis, hidle, -, -⟩ := Settlement.exists_basis_of_prepare hprepared
  have hfiled := (remembers_after config earlier).consistent.filed
  have haddress := Settlement.address_of_basis hfiled hbasis
  have hcustody : ((start config).after earlier).Custody ring config := by
    apply custody_after
    intro event hmem
    exact hring event (List.mem_append_left _ hmem)
  have hkeys := hcustody.keys i.pool pool hbasis.committed
  have hpath : prepared.stagedExecution.path = pool.keys.path :=
    congrArg PoolKeys.path (Pool.succeeds_of_stage hbasis.staged).keys
  obtain ⟨kept, hkept, hsame⟩ := exists_identity_eq_after hbasis.committed
    (.resume k now replies :: later)
  have hstep : (((start config).after earlier).step (.resume k now replies)).settlement =
      (((start config).after earlier).settlement.perform (.execute request confirmed now)).2 := by
    rw [step_resume now replies hstands, settlement, Stage.advance, Section.settlement_stage]
  refine ⟨earlier, .resume k now replies, later, i, kept, rfl, ⟨⟨confirmed, hstands⟩, hidle, ?_⟩,
    hbasis.selected, Settlement.decodePayload_of_prepare hprepared, hkept, ?_⟩
  · refine ⟨prepared.pendingTransaction request now, ?_, rfl⟩
    rw [hstep, ← haddress]
    exact (congrArg (·.pendingOn? prepared.plan.staged.address) hperformed).trans
      (SortedMap.get?_insert_self _ _ _)
  · have hkept : kept.keys = pool.keys := congrArg PoolIdentity.keys hsame
    rw [hkept, hpath, hkeys]
    rfl

end Signing

/-- Signatures are authorized by the pools they are for. In every state of a session that a key ring
answers, the keys of every registered pool are those of its own derivation path. An execution that
has succeeded has answered the payload of its request, followed by a signature: the payload that it
has staged on the pool of its intention, signed so that the tweaked key of this pool accepts it,
given that a signature verifies under the public key of the secret that has made it. -/
theorem signatures_authorized (ring : KeyRing) (config : Config) (events : List Event)
    (hring : ∀ event ∈ events, event.AnsweredBy ring) :
    let s := (start config).after events
    (∀ p pool, s.settlement.registry.get? p = some pool →
      pool.keys = ring.derive (s.exchange.derivationPath p pool)) ∧
    ∀ k request answer, s.calls[k]? = some (.execute request, .answered (.ok answer)) →
      ∃ payload signature earlier event later i pool,
        answer = .signed (Hex.encode (payload ++ signature)) ∧ signature.length = 64 ∧
        Hex.decode request.payload = .ok payload ∧ payload ≠ [] ∧
        request.set.select request.index = .ok i ∧
        events = earlier ++ event :: later ∧
        ((start config).after earlier).StagesPayload event k request i.pool payload ∧
        s.settlement.registry.get? i.pool = some pool ∧
        (Ed25519.VerifiesOwn (ring.tweakedSecret (s.exchange.derivationPath i.pool pool)) payload →
          KeyRing.verifySignature pool.keys.tweaked payload signature = .ok ()) := by
  intro s
  have hcustody : s.Custody ring config := custody_after config hring
  refine ⟨hcustody.keys, ?_⟩
  intro k request answer hanswered
  obtain ⟨signing, now, replies, rest, staged, signature, rfl, hwaits, hreply, rfl⟩ :=
    exists_signing hanswered
  have hsigner : ring.Answers replies := hring (.resume k now replies) (by simp)
  rw [hsigner.signature] at hreply
  obtain rfl : ring.sign staged.path staged.payload = signature := Except.ok.inj hreply
  obtain ⟨earlier, event, later, i, pool, rfl, hstages, hselect, hpayload, hpool, hkeys⟩ :=
    exists_stagesPayload (fun event hmem => hring event (List.mem_append_left _ hmem)) hwaits
  obtain ⟨kept, hkept, hsame⟩ := exists_identity_eq_after hpool (.resume k now replies :: rest)
  obtain ⟨hdecoded, hnonempty⟩ := Settlement.decodePayload_eq_ok_iff.1 hpayload
  have hown : kept.keys = ring.derive staged.path :=
    (congrArg PoolIdentity.keys hsame).trans hkeys
  have hpath : s.exchange.derivationPath i.pool kept = staged.path :=
    congrArg PoolKeys.path ((hcustody.keys i.pool kept hkept).symm.trans hown)
  refine ⟨staged.payload, _, earlier, event, later ++ .resume k now replies :: rest, i, kept, rfl,
    Ed25519.length_sign _ _, hdecoded, hnonempty, hselect, ?_, hstages, hkept, ?_⟩
  · rw [List.append_assoc, List.cons_append]
  · intro hverifies
    rw [hpath] at hverifies
    rw [hown]
    exact KeyRing.verifySignature_sign hverifies

namespace Sample

open Settlement.Sample (txid token legA legB)

def ring : KeyRing := ⟨.take 32 [], "tb1p"⟩

/-- The keys and signatures of the ring, and what an indexer says that knows the deposit. -/
def authentic : (q : Question) → Reply q
  | .keys path => .ok (ring.derive path)
  | .signature path message => .ok (ring.sign path message)
  | q => replies q

lemma answers_authentic : ring.Answers authentic := ⟨fun _ => rfl, fun _ _ => rfl⟩

/-- The address that the ring derives for the name "A". -/
def address : Address := "tb1p752491596df239e44c8704e469dfa7c66ca4b139"

def trade : Intention :=
  { swap 0#64 legA.outpoint ⟨txid 2, 0#32⟩ (Coin.native 20000#64) ⟨token, 5#128⟩ with
    pool := address }

def authorized : ExecuteRequest := ⟨"00", (txid 2).text, ⟨"trader", [trade]⟩, 0#32, 0#32⟩

/-- A pool is created and funded, and a swap on it is executed to its end. -/
def signing : List Event :=
  [.begin (.createPool "A" token 100#128 "") 0#64, .resume 0 0#64 authentic,
    .resume 0 0#64 authentic, .begin (.deposit address legA legB) 0#64, .resume 1 0#64 authentic,
    .resume 1 0#64 authentic, .begin (.execute authorized) 0#64, .resume 2 0#64 authentic,
    .resume 2 0#64 authentic]

/-- Whether a call has answered a signed transaction. -/
def isSigned : Stage → Bool
  | .answered (.ok (.signed _)) => true
  | _ => false

end Sample

theorem signatures_authorized_sample :
    let s := (start Sample.config).after Sample.signing
    ∃ signature pool,
      s.calls[2]? = some (.execute Sample.authorized,
        .answered (.ok (.signed (Hex.encode (0 :: signature))))) ∧
      s.settlement.registry.get? Sample.address = some pool ∧
      KeyRing.verifySignature pool.keys.tweaked [0] signature = .ok () := by
  intro s
  obtain ⟨hsigned, hprimary, hname⟩ :
      (s.calls[2]?.map fun call => (call.1, Sample.isSigned call.2)) =
        some (.execute Sample.authorized, true) ∧
      s.exchange.primary = none ∧
      (s.settlement.registry.get? Sample.address).map Pool.name = some "A" := by
    decide +kernel
  have hverifies : Ed25519.VerifiesOwn (Sample.ring.tweakedSecret [utf8 "A"]) [0] := by
    decide +kernel
  have hring : ∀ event ∈ Sample.signing, event.AnsweredBy Sample.ring := by
    simp [Sample.signing, Event.AnsweredBy, Sample.answers_authentic]
  obtain ⟨⟨original, stage⟩, hcall, hstage⟩ := Option.map_eq_some_iff.1 hsigned
  obtain ⟨rfl, hstage⟩ := Prod.mk.inj hstage
  cases stage with
  | run next => cases hstage
  | ask inquiry => cases hstage
  | answered result =>
    cases result with
    | error refusal => cases hstage
    | ok answer =>
      obtain ⟨-, hauthorized⟩ :=
        signatures_authorized Sample.ring Sample.config Sample.signing hring
      obtain ⟨payload, signature, -, -, -, i, pool, rfl, -, hpayload, -, hselect, -, -, hpool,
        haccepts⟩ := hauthorized 2 Sample.authorized answer hcall
      obtain rfl : [0] = payload := by
        have hdecoded : Hex.decode Sample.authorized.payload = .ok [0] := by decide +kernel
        exact Except.ok.inj (hdecoded.symm.trans hpayload)
      obtain rfl : Sample.trade = i := Except.ok.inj hselect
      have hs : (start Sample.config).after Sample.signing = s := rfl
      have haddress : Sample.trade.pool = Sample.address := rfl
      rw [hs, haddress] at hpool haccepts
      rw [hpool] at hname
      refine ⟨signature, pool, hcall, hpool, haccepts ?_⟩
      rw [Exchange.derivationPath, hprimary, if_neg (by rintro ⟨⟩), Option.some.inj hname]
      exact hverifies

end Session

end RuneSettlement
