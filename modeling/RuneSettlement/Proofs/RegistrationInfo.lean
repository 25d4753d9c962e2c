import RuneSettlement.Proofs.KeyCustody
import RuneSettlement.Proofs.LeadingOutput

/-!
# What to spend for a registration

`Exchange.registerInfo` tells which output of the primary pool a registration spends. In every state
of a session it answers from what is committed: that there is no primary pool until a call to
initialize has succeeded, that the pool is empty while it reserves none of the native coin, and
otherwise the leading output with the committed nonce (`Session.registerInfo_committed`). A
transaction that is pending on the primary pool changes the answer only by being finalized.
-/

namespace RuneSettlement

namespace Exchange

variable {e e' : Exchange}

/-- The answer that names one output of the primary pool. -/
def infoFor (e : Exchange) (address : Address) (pool : Pool) (utxo : Utxo) : RegisterInfo where
  untweaked := pool.keys.untweaked
  tweaked := pool.keys.tweaked
  address
  utxo
  registerFee := e.config.registerFee
  nonce := pool.nonce

lemma registerInfo_of_none (h : e.primary = none) : e.registerInfo = .error .poolNotFound := by
  rw [registerInfo, h]
  rfl

lemma registerInfo_of_some {p : Address} {pool : Pool} (h : e.primary = some p)
    (hpool : e.settlement.registry.get? p = some pool) :
    e.registerInfo =
      match pool.nativeUtxo? with
      | some utxo => .ok (e.infoFor p pool utxo)
      | none => .error .emptyPool := by
  simp only [registerInfo, h, Registry.require, Outcome.ofOption, bind, Except.bind, hpool]
  cases pool.nativeUtxo? <;> rfl

/-- The answer rests on the configuration and on the committed primary pool alone. -/
lemma registerInfo_congr (hconfig : e'.config = e.config) (hprimary : e'.primary = e.primary)
    (hpool : ∀ p, e.primary = some p →
      e'.settlement.registry.get? p = e.settlement.registry.get? p) :
    e'.registerInfo = e.registerInfo := by
  cases h : e.primary with
  | none => rw [registerInfo_of_none h, registerInfo_of_none (hprimary.trans h)]
  | some p =>
    simp only [registerInfo, hprimary, h, hconfig, Registry.require, Outcome.ofOption, bind,
      Except.bind, hpool p h]

lemma begin_initKey_ne (e : Exchange) (now : Timestamp) (answer : Answer) :
    (e.begin .initKey now).1 ≠ .answered (.ok answer) := by
  simp only [begin]
  split <;> simp

end Exchange

lemma Stage.Serves.initKey_cases {stage : Stage} (h : stage.Serves .initKey) :
    (∃ result, stage = .answered result) ∨ (∃ path, stage = .ask (.primaryKeys path)) ∨
      ∃ keys, stage = .run (.registerPrimary keys) := by
  cases h with
  | opens h =>
    cases h with
    | answered => exact .inl ⟨_, rfl⟩
    | primaryKeys => exact .inr (.inl ⟨_, rfl⟩)
    | registerPrimary => exact .inr (.inr ⟨_, rfl⟩)

lemma Stage.Serves.eq_initKey {keys : PoolKeys} {original : Request}
    (h : (Stage.run (.registerPrimary keys)).Serves original) : original = .initKey := by
  cases h with
  | opens h =>
    cases h
    rfl

namespace Session

/-! ### The primary pool -/

/-- A call to initialize the exchange has succeeded with an answer. -/
def Initialized (s : Session) (answer : Answer) : Prop :=
  (Request.initKey, Stage.answered (.ok answer)) ∈ s.calls

lemma mem_set_iff_of_ne {α : Type} {l : List α} {k : Nat} {old new x : α} (h : l[k]? = some old)
    (hold : x ≠ old) (hnew : x ≠ new) : x ∈ l.set k new ↔ x ∈ l := by
  constructor
  · intro hx
    exact (List.mem_or_eq_of_mem_set hx).resolve_right hnew
  · intro hx
    obtain ⟨j, hj⟩ := List.mem_iff_getElem?.1 hx
    have hne : k ≠ j := by
      rintro rfl
      rw [h] at hj
      exact hold (Option.some.inj hj).symm
    exact List.mem_of_getElem? ((List.getElem?_set_ne hne).trans hj)

/-- All that an event can do to the primary pool and to the calls that initialize the exchange: it
leaves both as they are, or it registers the pool and answers with its address. -/
inductive Initialization (s s' : Session) : Prop
  | kept (primary : s'.exchange.primary = s.exchange.primary)
      (answers : ∀ answer, s'.Initialized answer ↔ s.Initialized answer)
  | accepted {keys : PoolKeys} (unset : s.exchange.primary = none)
      (registered : s.settlement.registry.register (s.exchange.primaryPool keys) =
        .ok s'.settlement.registry)
      (primary : s'.exchange.primary = some keys.address)
      (answers : ∀ answer, s'.Initialized answer ↔
        s.Initialized answer ∨ answer = .address keys.address)

lemma initialization_begin (s : Session) (request : Request) (now : Timestamp) :
    s.Initialization (s.step (.begin request now)) := by
  refine .kept (s.exchange.primary_begin request now) ?_
  intro answer
  have hcalls : (s.step (.begin request now)).calls =
      s.calls ++ [(request, (s.exchange.begin request now).1)] := rfl
  rw [Initialized, Initialized, hcalls, List.mem_append, List.mem_singleton]
  constructor
  · rintro (hold | hnew)
    · exact hold
    · obtain ⟨rfl, hstage⟩ := Prod.mk.inj hnew
      exact absurd hstage.symm (s.exchange.begin_initKey_ne now answer)
  · exact .inl

/-- The section of an initialization answers with the address of the pool that it registers. -/
lemma initialization_registerPrimary {s : Session} {k : Nat} {keys : PoolKeys}
    (hcall : s.calls[k]? = some (.initKey, .run (.registerPrimary keys))) (now : Timestamp)
    (replies : (q : Question) → Reply q) : s.Initialization (s.step (.resume k now replies)) := by
  have hrun : (Stage.run (.registerPrimary keys)).advance now replies s.exchange =
      (.answered (s.exchange.registerPrimary keys).1, (s.exchange.registerPrimary keys).2) := rfl
  rw [step_resume now replies hcall, hrun]
  cases hprimary : s.exchange.primary with
  | some p =>
    rw [Exchange.registerPrimary_of_some hprimary]
    exact .kept rfl fun answer => mem_set_iff_of_ne hcall (by simp) (by simp)
  | none =>
    rw [Exchange.registerPrimary_eq hprimary]
    cases hregister : s.settlement.registry.register (s.exchange.primaryPool keys) with
    | error refusal => exact .kept rfl fun answer => mem_set_iff_of_ne hcall (by simp) (by simp)
    | ok registry =>
      refine .accepted hprimary hregister rfl fun answer => ?_
      by_cases hnew : answer = .address keys.address
      · subst hnew
        obtain ⟨hlt, -⟩ := List.getElem?_eq_some_iff.1 hcall
        exact iff_of_true (List.mem_set hlt _) (.inr rfl)
      · rw [or_iff_left hnew]
        exact mem_set_iff_of_ne hcall (by simp) (by simpa using hnew)

/-- A stage that is not answered leads to an answered initialization through its section only. -/
lemma initialization_resume {s : Session} {k : Nat} {original : Request} {stage : Stage}
    (hserves : stage.Serves original) (hcall : s.calls[k]? = some (original, stage))
    (now : Timestamp) (replies : (q : Question) → Reply q) :
    s.Initialization (s.step (.resume k now replies)) := by
  by_cases horiginal : original = .initKey
  · subst horiginal
    rcases hserves.initKey_cases with ⟨result, rfl⟩ | ⟨path, rfl⟩ | ⟨keys, rfl⟩
    · obtain ⟨hlt, hget⟩ := List.getElem?_eq_some_iff.1 hcall
      have hsame : s.calls.set k (.initKey, .answered result) = s.calls := by
        rw [← hget, List.set_getElem_self]
      rw [step_resume now replies hcall]
      refine .kept rfl fun answer => ?_
      rw [Initialized, Stage.advance, hsame]
      rfl
    · rw [step_resume now replies hcall]
      refine .kept rfl fun answer => mem_set_iff_of_ne hcall (by simp) ?_
      simp only [Stage.advance, Inquiry.question]
      cases replies (.keys path) <;> simp [Inquiry.hear]
    · exact initialization_registerPrimary hcall now replies
  · rw [step_resume now replies hcall]
    refine .kept ?_ fun answer => mem_set_iff_of_ne hcall ?_ ?_
    · apply Stage.primary_advance
      rintro keys rfl
      exact horiginal hserves.eq_initKey
    · exact fun heq => horiginal (Prod.mk.inj heq).1.symm
    · exact fun heq => horiginal (Prod.mk.inj heq).1.symm

lemma initialization_step {s : Session} (hs : s.Sound) (event : Event) :
    s.Initialization (s.step event) := by
  cases event with
  | begin request now => exact s.initialization_begin request now
  | resume k now replies =>
    cases hcall : s.calls[k]? with
    | none =>
      rw [step, hcall]
      exact .kept rfl fun _ => Iff.rfl
    | some call =>
      exact initialization_resume (hs call (List.mem_of_getElem? hcall)) hcall now replies

/-- The primary pool is the one that a call to initialize has answered with. It is registered, and
its reserves are exact. -/
structure PrimarySound (s : Session) (config : Config) : Prop where
  configured : s.exchange.config = config
  answered : ∀ answer, s.Initialized answer ↔
    ∃ p, answer = .address p ∧ s.exchange.primary = some p
  registered : ∀ p, s.exchange.primary = some p →
    ∃ pool, s.settlement.registry.get? p = some pool
  exact : ∀ p, s.exchange.primary = some p → s.settlement.ExactOn p

section Steps

variable {s : Session} {config : Config}

lemma PrimarySound.step (h : s.PrimarySound config) (hs : s.Sound)
    (hconsistent : s.settlement.Consistent) (htoken : config.runeId ≠ .native) (event : Event) :
    (s.step event).PrimarySound config := by
  have hconfig : (s.step event).exchange.config = config :=
    (follows_step hs event).config.trans h.configured
  cases initialization_step hs event with
  | kept primary answers =>
    suffices hpools : ∀ p, s.exchange.primary = some p →
        (∃ pool, (s.step event).settlement.registry.get? p = some pool) ∧
          (s.step event).settlement.ExactOn p by
      refine ⟨hconfig, ?_, ?_, ?_⟩
      · intro answer
        rw [answers, primary]
        exact h.answered answer
      · intro p hp
        exact (hpools p (primary ▸ hp)).1
      · intro p hp
        exact (hpools p (primary ▸ hp)).2
    intro p hp
    obtain ⟨pool, hpool⟩ := h.registered p hp
    rcases moves_step hs event with ⟨-, hsame⟩ | ⟨call, -, hmove⟩
    · rw [hsame]
      exact ⟨⟨pool, hpool⟩, h.exact p hp⟩
    · obtain ⟨later, hlater, -⟩ := (hmove.change hconsistent).exists_identity_eq hpool
      refine ⟨⟨later, hlater⟩,
        (hmove.poolMove hconsistent p).exactOn hconsistent ?_ (h.exact p hp)⟩
      intro habsent
      rw [hpool] at habsent
      cases habsent
  | @accepted keys unset registered primary answers =>
    have hget := Registry.get?_of_register registered keys.address
    rw [Exchange.address_primaryPool, if_pos rfl] at hget
    refine ⟨hconfig, ?_, ?_, ?_⟩
    · intro answer
      rw [answers, h.answered, unset, primary]
      simp [eq_comm]
    · intro p hp
      rw [primary] at hp
      cases hp
      exact ⟨_, hget⟩
    · intro p hp pool hpool
      rw [primary] at hp
      cases hp
      rw [settlement, hget] at hpool
      cases hpool
      refine ⟨?_, Pool.exact_create _ keys _ _ _⟩
      rw [Exchange.primaryPool, h.configured]
      exact htoken

end Steps

lemma primarySound_after {config : Config} (htoken : config.runeId ≠ .native)
    (events : List Event) : ((start config).after events).PrimarySound config := by
  induction events using List.reverseRecOn with
  | nil =>
    refine ⟨rfl, ?_, ?_, ?_⟩
    · intro answer
      simp [Initialized, after, start, Exchange.create]
    · intro p hp
      cases hp
    · intro p hp
      cases hp
  | append_singleton events event ih =>
    rw [after_concat]
    exact ih.step (sound_after config events) (remembers_after config events).consistent htoken
      event

/-- What a registration on the primary pool is answered with, by what is committed. -/
inductive Registers (s : Session) : Outcome RegisterInfo → Prop
  | uninitialized (never : ∀ answer, ¬s.Initialized answer) : Registers s (.error .poolNotFound)
  | empty {p : Address} {pool : Pool} (initialized : s.Initialized (.address p))
      (committed : s.settlement.registry.get? p = some pool)
      (empty : pool.reserves.native = 0#64) : Registers s (.error .emptyPool)
  | named {p : Address} {pool : Pool} {utxo : Utxo} (initialized : s.Initialized (.address p))
      (committed : s.settlement.registry.get? p = some pool)
      (funded : pool.reserves.native ≠ 0#64) (leads : utxo.Leads pool.utxos.toList) :
      Registers s (.ok (s.exchange.infoFor p pool utxo))

section Answers

variable {s : Session} {config : Config}

lemma PrimarySound.initialized_iff (h : s.PrimarySound config) {p : Address} :
    s.Initialized (.address p) ↔ s.exchange.primary = some p := by
  rw [h.answered]
  constructor
  · rintro ⟨_, heq, hp⟩
    cases heq
    exact hp
  · intro hp
    exact ⟨p, rfl, hp⟩

/-- Queries are answered from the committed state. -/
lemma PrimarySound.registerInfo_eq_iff (h : s.PrimarySound config)
    {outcome : Outcome RegisterInfo} :
    s.exchange.registerInfo = outcome ↔ s.Registers outcome := by
  constructor
  · rintro rfl
    cases hprimary : s.exchange.primary with
    | none =>
      rw [Exchange.registerInfo_of_none hprimary]
      refine .uninitialized fun answer => ?_
      rw [h.answered, hprimary]
      rintro ⟨_, -, hp⟩
      cases hp
    | some p =>
      obtain ⟨pool, hpool⟩ := h.registered p hprimary
      have hexact := (h.exact p hprimary pool hpool).2
      have hinitialized := h.initialized_iff.2 hprimary
      rw [Exchange.registerInfo_of_some hprimary hpool]
      cases hutxo : pool.nativeUtxo? with
      | none => exact .empty hinitialized hpool (hexact.nativeUtxo?_eq_none_iff.1 hutxo)
      | some utxo =>
        obtain ⟨hfunded, hleads⟩ := hexact.nativeUtxo?_eq_some_iff.1 hutxo
        exact .named hinitialized hpool hfunded hleads
  · intro hregisters
    cases hregisters with
    | uninitialized never =>
      apply Exchange.registerInfo_of_none
      cases hprimary : s.exchange.primary with
      | none => rfl
      | some p => exact absurd (h.initialized_iff.2 hprimary) (never (.address p))
    | @empty p pool initialized committed empty =>
      have hprimary := h.initialized_iff.1 initialized
      have hexact := (h.exact p hprimary pool committed).2
      rw [Exchange.registerInfo_of_some hprimary committed,
        hexact.nativeUtxo?_eq_none_iff.2 empty]
    | @named p pool utxo initialized committed funded leads =>
      have hprimary := h.initialized_iff.1 initialized
      have hexact := (h.exact p hprimary pool committed).2
      rw [Exchange.registerInfo_of_some hprimary committed,
        hexact.nativeUtxo?_eq_some_iff.2 ⟨funded, leads⟩]

end Answers

end Session

/-! ### Pending transactions -/

/-- A transaction that was pending leaves the pool as it is unless it is finalized. -/
lemma Settlement.Moves.get?_of_unfinalized {s s' : Settlement} {call : Settlement.Call}
    {answer : Outcome Settlement.Receipt} {p : Address} {slot : PendingTransaction}
    (h : s.Moves call answer s') (hs : s.Consistent) (hslot : s.pendingOn? p = some slot)
    (hkept : Settlement.Step.resolution? ⟨s, call, answer⟩ ≠
      some ((p, slot.txid), .finalized)) :
    s'.registry.get? p = s.registry.get? p := by
  by_cases hheld : s'.pendingOn? p = some slot
  · exact h.registry_frame hs hheld
  · obtain ⟨resolution, hresolves, -⟩ := h.exists_resolution hs hslot hheld
    cases resolution with
    | finalized => exact absurd hresolves hkept
    | rolledBack =>
      cases h with
      | committed named keyed pending =>
        simp only [Settlement.Step.resolution?, Settlement.named?_eq_some named keyed pending,
          Option.map_some, Option.some.injEq, Prod.mk.injEq, reduceCtorEq, and_false] at hresolves
      | registered new => cases hresolves
      | funded idle admitted committed recorded => cases hresolves
      | unrecorded idle admitted committed beyond => cases hresolves
      | _ => rfl

namespace Session

section Pending

variable {s : Session} {event : Event} {p : Address} {slot : PendingTransaction}

lemma get?_step_of_pending (hs : s.Sound) (hconsistent : s.settlement.Consistent)
    (hslot : s.settlement.pendingOn? p = some slot ∨
      (s.step event).settlement.pendingOn? p = some slot)
    (hkept : event.resolution? s ≠ some ((p, slot.txid), .finalized)) :
    (s.step event).settlement.registry.get? p = s.settlement.registry.get? p := by
  rcases moves_step hs event with ⟨-, hsame⟩ | ⟨call, hcall, hmove⟩
  · rw [hsame]
  · rcases hslot with hbefore | hafter
    · apply hmove.get?_of_unfinalized hconsistent hbefore
      rw [Event.resolution?, hcall] at hkept
      exact hkept
    · exact hmove.registry_frame hconsistent hafter

/-- The primary pool stays the same once there is one. -/
lemma primary_step (hs : s.Sound) (hprimary : s.exchange.primary = some p) (event : Event) :
    (s.step event).exchange.primary = s.exchange.primary := by
  cases initialization_step hs event with
  | kept primary => exact primary
  | accepted unset =>
    rw [unset] at hprimary
    cases hprimary

lemma pendingOn?_step (hs : s.Sound) (hconsistent : s.settlement.Consistent)
    (hslot : s.settlement.pendingOn? p = some slot)
    (hunresolved : ∀ resolution, event.resolution? s ≠ some ((p, slot.txid), resolution)) :
    (s.step event).settlement.pendingOn? p = some slot := by
  rcases moves_step hs event with ⟨-, hsame⟩ | ⟨call, hcall, hmove⟩
  · rw [hsame]
    exact hslot
  · apply (hmove.slotMove hconsistent.filed).pendingOn?_eq hslot
    rw [Event.resolution?, hcall] at hunresolved
    exact hunresolved

/-- An event that finds or leaves a transaction pending on the primary pool changes the answer only
by finalizing that transaction. -/
lemma registerInfo_step_of_pending (hs : s.Sound) (hconsistent : s.settlement.Consistent)
    (hprimary : s.exchange.primary = some p)
    (hslot : s.settlement.pendingOn? p = some slot ∨
      (s.step event).settlement.pendingOn? p = some slot)
    (hkept : event.resolution? s ≠ some ((p, slot.txid), .finalized)) :
    (s.step event).exchange.registerInfo = s.exchange.registerInfo := by
  apply Exchange.registerInfo_congr (follows_step hs event).config
    (primary_step hs hprimary event)
  intro q hq
  obtain rfl : p = q := Option.some.inj (hprimary.symm.trans hq)
  exact get?_step_of_pending hs hconsistent hslot hkept

end Pending

/-- As long as a transaction is pending on the primary pool, the answer is the same. -/
lemma registerInfo_after_of_pending {config : Config} {events later : List Event} {p : Address}
    {slot : PendingTransaction}
    (hprimary : ((start config).after events).exchange.primary = some p)
    (hslot : ((start config).after events).settlement.pendingOn? p = some slot)
    (hunresolved : ∀ resolution,
      ((p, slot.txid), resolution) ∉ ((start config).after events).resolutions later) :
    (((start config).after events).after later).exchange.registerInfo =
      ((start config).after events).exchange.registerInfo := by
  -- The induction carries along that the slot is held and that the primary pool is the same.
  suffices hheld : (((start config).after events).after later).exchange.primary = some p ∧
      (((start config).after events).after later).settlement.pendingOn? p = some slot ∧
      (((start config).after events).after later).exchange.registerInfo =
        ((start config).after events).exchange.registerInfo from hheld.2.2
  induction later using List.reverseRecOn with
  | nil => exact ⟨hprimary, hslot, rfl⟩
  | append_singleton later event ih =>
    simp only [resolutions_concat, List.mem_append, not_or, Option.mem_toList] at hunresolved
    obtain ⟨hstill, hheld, hinfo⟩ := ih fun resolution => (hunresolved resolution).1
    have hlast := fun resolution => (hunresolved resolution).2
    rw [after_concat]
    rw [← after_append] at hstill hheld hinfo hlast ⊢
    have hsound := sound_after config (events ++ later)
    have hconsistent := (remembers_after config (events ++ later)).consistent
    refine ⟨(primary_step hsound hstill event).trans hstill,
      pendingOn?_step hsound hconsistent hheld hlast, ?_⟩
    rw [registerInfo_step_of_pending hsound hconsistent hstill (.inl hheld) (hlast .finalized),
      hinfo]

lemma runeId_ne_native {config : Config} (hvalid : config.validate = .ok ()) :
    config.runeId ≠ .native := by
  intro hnative
  simp only [Config.validate, Outcome.unless_eq_ok_iff, hnative, CoinId.isNative] at hvalid
  obtain ⟨-, hnotNative, -⟩ := hvalid
  exact hnotNative trivial

/-- In every state of a session registrations are answered from what is committed: the primary pool
is missing until a call to initialize has succeeded, it is empty while it reserves none of the
native coin, and otherwise its leading output is named with its committed nonce. A transaction
pending on the primary pool changes nothing about the answer when it is staged, while it is held or
when it is rolled back. -/
theorem registerInfo_committed {config : Config} (hvalid : config.validate = .ok ())
    (events : List Event) :
    let s := (start config).after events
    (∀ outcome, s.exchange.registerInfo = outcome ↔ s.Registers outcome) ∧
    (∀ event p slot, s.Initialized (.address p) →
      (s.settlement.pendingOn? p = some slot ∨
        (s.step event).settlement.pendingOn? p = some slot) →
      event.resolution? s ≠ some ((p, slot.txid), .finalized) →
      (s.step event).exchange.registerInfo = s.exchange.registerInfo) ∧
    ∀ later p slot, s.Initialized (.address p) → s.settlement.pendingOn? p = some slot →
      (∀ resolution, ((p, slot.txid), resolution) ∉ s.resolutions later) →
      (s.after later).exchange.registerInfo = s.exchange.registerInfo := by
  intro s
  have hprimary := primarySound_after (runeId_ne_native hvalid) events
  refine ⟨fun outcome => hprimary.registerInfo_eq_iff, ?_, ?_⟩
  · intro event p slot hinitialized hslot hkept
    exact registerInfo_step_of_pending (sound_after config events)
      (remembers_after config events).consistent (hprimary.initialized_iff.1 hinitialized) hslot
      hkept
  · intro later p slot hinitialized hslot hunresolved
    exact registerInfo_after_of_pending (hprimary.initialized_iff.1 hinitialized) hslot hunresolved

namespace Sample

open Settlement.Sample (txid legA legB)

/-- The first deposit of the primary pool is a hundred tokens. -/
def founded : Config := { config with depositAmount := 100#128 }

/-- The primary pool is set up and funded, and a transaction is staged on it. -/
def trading : List Event :=
  whole 0 .initKey 2 ++ whole 1 (.deposit "pool" legA legB) 2 ++ whole 2 (.execute request) 1

end Sample

/-- The larger of two outputs is named although it carries a token, and a rollback of the pending
transaction does not change that. -/
theorem registerInfo_committed_sample :
    let s := (start Sample.founded).after Sample.trading
    let dropping := Event.begin (.rollback ⟨(Settlement.Sample.txid 2).text, "untweaked"⟩) 0#64
    Sample.founded.validate = .ok () ∧ (s.settlement.pendingOn? "pool").isSome = true ∧
      s.Registers (.ok ⟨"untweaked", "tweaked", "pool", Settlement.Sample.legA, 10000#64, 0#64⟩) ∧
      (s.step dropping).settlement.pendingOn? "pool" = none ∧
      (s.step dropping).exchange.registerInfo = s.exchange.registerInfo := by
  intro s dropping
  have hvalid : Sample.founded.validate = .ok () := by decide +kernel
  obtain ⟨hpending, hinfo, hprimary, hdropped, hresolves⟩ :
      (s.settlement.pendingOn? "pool").map (·.txid) = some (Settlement.Sample.txid 2) ∧
      s.exchange.registerInfo =
        .ok ⟨"untweaked", "tweaked", "pool", Settlement.Sample.legA, 10000#64, 0#64⟩ ∧
      s.exchange.primary = some "pool" ∧
      (s.step dropping).settlement.pendingOn? "pool" = none ∧
      dropping.resolution? s = some (("pool", Settlement.Sample.txid 2), .rolledBack) := by
    decide +kernel
  obtain ⟨slot, hslot, -⟩ := Option.map_eq_some_iff.1 hpending
  obtain ⟨hanswers, hstep, -⟩ := registerInfo_committed hvalid Sample.trading
  have hinitialized : s.Initialized (.address "pool") :=
    (primarySound_after (runeId_ne_native hvalid) Sample.trading).initialized_iff.2 hprimary
  refine ⟨hvalid, ?_, (hanswers _).1 hinfo, hdropped, ?_⟩
  · rw [hslot]
    rfl
  · apply hstep dropping "pool" slot hinitialized (.inl hslot)
    rw [hresolves]
    simp

end Session

end RuneSettlement
