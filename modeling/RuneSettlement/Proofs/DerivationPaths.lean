import RuneSettlement.Proofs.KeyCustody

/-!
# Derivation paths of the primary pool and of others

The path of the primary pool is the bytes of its token, and that of any other pool the bytes of its
name. Nothing keeps the two apart, so a pool whose name happens to have the bytes of the token takes
the key of the primary pool before that is registered (`Session.primary_path_taken`). Only such a
pool does: as long as there is none, and as long as keys and addresses of different paths differ,
the primary pool can be registered (`Session.initKey_succeeds_unless_taken`).
-/

namespace RuneSettlement

lemma Registry.register_eq_error_of_get? {r : Registry} {pool other : Pool}
    (h : r.get? pool.address = some other) : r.register pool = .error .poolExists := by
  have hcontains : r.pools.contains pool.address = true :=
    (congrArg Option.isSome h).trans Option.isSome_some
  rw [register, if_pos (.inl hcontains)]

/-- A pool can be registered where no pool has its address or its key. -/
lemma Registry.exists_register {r : Registry} {pool : Pool} (hfiled : r.Filed)
    (hindexed : r.Indexed)
    (hfree : ∀ p other, r.get? p = some other →
      other.keys.untweaked ≠ pool.keys.untweaked ∧ other.address ≠ pool.address) :
    ∃ r', r.register pool = .ok r' := by
  refine ⟨_, register_eq_ok_iff.2 ⟨?_, ?_, rfl⟩⟩
  · cases hget : r.get? pool.address with
    | none => rfl
    | some other => exact absurd (hfiled _ other hget) (hfree _ other hget).2
  · cases hget : r.addresses.get? pool.keys.untweaked with
    | none => rfl
    | some p =>
      obtain ⟨other, hother, hkey⟩ := hindexed _ p (Outcome.ofOption_eq_ok_iff.2 hget)
      exact absurd hkey (hfree p other hother).1

namespace Session

/-- The derivation path of the primary pool, whether it is registered or not. -/
def primaryPath (config : Config) : DerivationPath := [config.runeId.toBytes]

lemma indexed_after (config : Config) (events : List Event) :
    ((start config).after events).settlement.registry.Indexed := by
  induction events using List.reverseRecOn with
  | nil =>
    intro key address hkey
    cases hkey
  | append_singleton events event ih =>
    rw [after_concat]
    rcases moves_step (sound_after config events) event with ⟨-, hsame⟩ | ⟨call, -, hmove⟩
    · rw [hsame]
      exact ih
    · exact (hmove.change (remembers_after config events).consistent).indexed ih

section Unset

variable {s : Session} {ring : KeyRing} {config : Config} {p : Address} {pool : Pool}

/-- Before there is a primary pool every pool has the keys of its name. -/
lemma Custody.keys_of_unset (h : s.Custody ring config) (hunset : s.exchange.primary = none)
    (hpool : s.settlement.registry.get? p = some pool) :
    pool.keys = ring.derive [utf8 pool.name] := by
  rw [h.keys p pool hpool, Exchange.derivationPath, hunset, if_neg (by rintro ⟨⟩)]

lemma Custody.path_eq_primaryPath_iff (h : s.Custody ring config)
    (hunset : s.exchange.primary = none) (hpool : s.settlement.registry.get? p = some pool) :
    pool.keys.path = primaryPath config ↔ utf8 pool.name = config.runeId.toBytes := by
  have hpath : pool.keys.path = [utf8 pool.name] :=
    congrArg PoolKeys.path (h.keys_of_unset hunset hpool)
  rw [hpath, primaryPath, List.cons.injEq, and_iff_left rfl]

end Unset

/-- No registered pool has the key or the address of the primary path, unless it has that path. -/
def Separated (s : Session) (ring : KeyRing) (config : Config) : Prop :=
  ∀ p pool, s.settlement.registry.get? p = some pool → pool.keys.path ≠ primaryPath config →
    pool.keys.untweaked ≠ (ring.derive (primaryPath config)).untweaked ∧
    pool.address ≠ (ring.derive (primaryPath config)).address

/-- The events of a call that initializes the key, if nothing happens in between. -/
def initKey (s : Session) (now : Timestamp) (replies : (q : Question) → Reply q) : List Event :=
  [.begin .initKey now, .resume s.calls.length now replies, .resume s.calls.length now replies]

lemma step_resume_last {e : Exchange} {calls : List (Request × Stage)} (original : Request)
    (stage : Stage) (now : Timestamp) (replies : (q : Question) → Reply q) :
    step ⟨e, calls ++ [(original, stage)]⟩ (.resume calls.length now replies) =
      ⟨(stage.advance now replies e).2,
        calls ++ [(original, (stage.advance now replies e).1)]⟩ := by
  rw [step_resume now replies List.getElem?_concat_length]
  simp

section Initializing

variable {s : Session} {ring : KeyRing} {config : Config} {replies : (q : Question) → Reply q}

/-- A call that initializes the key, from its beginning to its answer. -/
lemma after_initKey (h : s.Custody ring config) (hring : ring.Answers replies)
    (hunset : s.exchange.primary = none) (now : Timestamp) :
    s.after (s.initKey now replies) =
      ⟨(s.exchange.registerPrimary (ring.derive (primaryPath config))).2,
        s.calls ++ [(.initKey,
          .answered (s.exchange.registerPrimary (ring.derive (primaryPath config))).1)]⟩ := by
  have hfree : ¬s.exchange.primary.isSome = true := by
    rw [hunset]
    exact Bool.false_ne_true
  have hasks : s.step (.begin .initKey now) =
      ⟨s.exchange, s.calls ++ [(.initKey, .ask (.primaryKeys (primaryPath config)))]⟩ := by
    rw [step, Exchange.begin, if_neg hfree, h.configured, primaryPath]
  have hreply : Stage.advance now replies s.exchange (.ask (.primaryKeys (primaryPath config))) =
      (.run (.registerPrimary (ring.derive (primaryPath config))), s.exchange) := by
    simp only [Stage.advance, Inquiry.question, hring.keys]
    rfl
  have hafter : s.after (s.initKey now replies) =
      ((s.step (.begin .initKey now)).step (.resume s.calls.length now replies)).step
        (.resume s.calls.length now replies) := rfl
  rw [hafter, hasks, step_resume_last, hreply, step_resume_last]
  rfl

lemma registerPrimary_of_separated (h : s.Custody ring config)
    (hfiled : s.settlement.registry.Filed) (hindexed : s.settlement.registry.Indexed)
    (hunset : s.exchange.primary = none) (hseparated : s.Separated ring config)
    (hother : ∀ p pool, s.settlement.registry.get? p = some pool →
      utf8 pool.name ≠ config.runeId.toBytes) :
    (s.exchange.registerPrimary (ring.derive (primaryPath config))).1 =
      .ok (.address (ring.derive (primaryPath config)).address) := by
  obtain ⟨registry, hregister⟩ : ∃ registry, s.exchange.settlement.registry.register
      (s.exchange.primaryPool (ring.derive (primaryPath config))) = .ok registry := by
    apply Registry.exists_register hfiled hindexed
    intro p pool hpool
    apply hseparated p pool hpool
    rw [ne_eq, h.path_eq_primaryPath_iff hunset hpool]
    exact hother p pool hpool
  rw [Exchange.registerPrimary_eq hunset, hregister]

lemma registerPrimary_of_taken (h : s.Custody ring config) (hfiled : s.settlement.registry.Filed)
    (hunset : s.exchange.primary = none) {p : Address} {pool : Pool}
    (hpool : s.settlement.registry.get? p = some pool)
    (hname : utf8 pool.name = config.runeId.toBytes) :
    s.exchange.registerPrimary (ring.derive (primaryPath config)) =
      (.error .poolExists, s.exchange) := by
  have hkeys : pool.keys = ring.derive (primaryPath config) := by
    rw [h.keys_of_unset hunset hpool, hname, primaryPath]
  have haddress : (ring.derive (primaryPath config)).address = p := by
    rw [← hkeys]
    exact hfiled p pool hpool
  rw [← haddress] at hpool
  have hrefused : s.exchange.settlement.registry.register
      (s.exchange.primaryPool (ring.derive (primaryPath config))) = .error .poolExists :=
    Registry.register_eq_error_of_get? hpool
  rw [Exchange.registerPrimary_eq hunset, hrefused]

end Initializing

/-- As long as there is no primary pool, the path that it will have is the path of those registered
pools whose name has the bytes of the primary token, and of no others. Where there is none of them a
call that initializes the key succeeds, given that no other path leads to the same key or address.
Where there is one the call is refused and changes nothing. -/
theorem initKey_succeeds_unless_taken (ring : KeyRing) (config : Config) (events : List Event)
    (replies : (q : Question) → Reply q) (now : Timestamp)
    (hring : ∀ event ∈ events, event.AnsweredBy ring) (hreplies : ring.Answers replies)
    (hunset : ((start config).after events).exchange.primary = none) :
    let s := (start config).after events
    let next := s.after (s.initKey now replies)
    (∀ p pool, s.settlement.registry.get? p = some pool →
      (pool.keys.path = primaryPath config ↔ utf8 pool.name = config.runeId.toBytes)) ∧
    ((∀ p pool, s.settlement.registry.get? p = some pool →
        utf8 pool.name ≠ config.runeId.toBytes) →
      s.Separated ring config →
      next.calls[s.calls.length]? = some (.initKey,
        .answered (.ok (.address (ring.derive (primaryPath config)).address)))) ∧
    ∀ p pool, s.settlement.registry.get? p = some pool →
      utf8 pool.name = config.runeId.toBytes →
      next.calls[s.calls.length]? = some (.initKey, .answered (.error .poolExists)) ∧
        next.exchange = s.exchange := by
  intro s next
  have hcustody : s.Custody ring config := custody_after config hring
  have hfiled : s.settlement.registry.Filed := (remembers_after config events).consistent.filed
  have hnext : next = _ := after_initKey hcustody hreplies hunset now
  rw [hnext]
  dsimp only
  rw [List.getElem?_concat_length]
  refine ⟨?_, ?_, ?_⟩
  · intro p pool hpool
    exact hcustody.path_eq_primaryPath_iff hunset hpool
  · intro hother hseparated
    rw [registerPrimary_of_separated hcustody hfiled (indexed_after config events) hunset
      hseparated hother]
  · intro p pool hpool hname
    rw [registerPrimary_of_taken hcustody hfiled hunset hpool hname]
    exact ⟨rfl, rfl⟩

namespace Sample

open Settlement.Sample (token)

/-- A pool is created. -/
def naming (name : String) : List Event :=
  [.begin (.createPool name token 100#128 "") 0#64, .resume 0 0#64 authentic,
    .resume 0 0#64 authentic]

lemma answeredBy_naming (name : String) : ∀ event ∈ naming name, event.AnsweredBy ring := by
  simp [naming, Event.AnsweredBy, answers_authentic]

/-- A configuration whose token is written with the bytes of a text. -/
def textual : Config :=
  { Config.default with runeId := .rune 4702111234474983745#64 1094795585#32 }

end Sample

theorem initKey_succeeds_unless_taken_sample :
    let s := (start Sample.config).after (Sample.naming "A")
    s.settlement.registry.size = 1 ∧
      (s.after (s.initKey 0#64 Sample.authentic)).calls[1]? = some (.initKey,
        .answered (.ok (.address (Sample.ring.derive (primaryPath Sample.config)).address))) := by
  intro s
  obtain ⟨hunset, hsize, hcalls, hpools⟩ :
      s.exchange.primary = none ∧ s.settlement.registry.size = 1 ∧ s.calls.length = 1 ∧
        s.settlement.registry.pools.entries.all fun e =>
          decide (utf8 e.2.name ≠ Sample.config.runeId.toBytes) &&
          decide (e.2.keys.untweaked ≠
              (Sample.ring.derive (primaryPath Sample.config)).untweaked ∧
            e.2.address ≠ (Sample.ring.derive (primaryPath Sample.config)).address) := by
    decide +kernel
  have hpool : ∀ p pool, s.settlement.registry.get? p = some pool →
      utf8 pool.name ≠ Sample.config.runeId.toBytes ∧
      pool.keys.untweaked ≠ (Sample.ring.derive (primaryPath Sample.config)).untweaked ∧
      pool.address ≠ (Sample.ring.derive (primaryPath Sample.config)).address := by
    intro p pool hget
    have hentry := List.all_eq_true.1 hpools _ (SortedMap.get?_eq_some_iff.1 hget)
    rwa [Bool.and_eq_true, decide_eq_true_iff, decide_eq_true_iff] at hentry
  obtain ⟨-, hsucceeds, -⟩ := initKey_succeeds_unless_taken Sample.ring Sample.config
    (Sample.naming "A") Sample.authentic 0#64 (Sample.answeredBy_naming "A")
    Sample.answers_authentic hunset
  have hanswer := hsucceeds (fun p pool hget => (hpool p pool hget).1)
    (fun p pool hget _ => (hpool p pool hget).2)
  have hs : (start Sample.config).after (Sample.naming "A") = s := rfl
  rw [hs, hcalls] at hanswer
  exact ⟨hsize, hanswer⟩

/-- A name can have the bytes of the primary token. The pool with that name then has the key of the
primary pool, and the primary pool cannot be registered any more. -/
theorem primary_path_taken :
    let s := (start Sample.textual).after (Sample.naming "AAAAAAAAAAAA")
    Sample.textual.validate = .ok () ∧ Sample.textual.keyRing = .ok Sample.ring ∧
      (∀ event ∈ Sample.naming "AAAAAAAAAAAA", event.AnsweredBy Sample.ring) ∧
      s.exchange.primary = none ∧ s.Separated Sample.ring Sample.textual ∧
      (∃ p pool, s.settlement.registry.get? p = some pool ∧
        pool.keys.path = primaryPath Sample.textual) ∧
      (s.after (s.initKey 0#64 Sample.authentic)).calls[1]? =
        some (.initKey, .answered (.error .poolExists)) := by
  intro s
  obtain ⟨hvalid, hring, hunset, hcalls, hpools⟩ :
      Sample.textual.validate = .ok () ∧ Sample.textual.keyRing = .ok Sample.ring ∧
        s.exchange.primary = none ∧ s.calls.length = 1 ∧
        s.settlement.registry.pools.entries.map (fun e => e.2.name) = ["AAAAAAAAAAAA"] := by
    decide +kernel
  have hbytes : utf8 "AAAAAAAAAAAA" = Sample.textual.runeId.toBytes := by decide +kernel
  have hanswered := Sample.answeredBy_naming "AAAAAAAAAAAA"
  have hcustody : s.Custody Sample.ring Sample.textual := custody_after Sample.textual hanswered
  have hfiled : s.settlement.registry.Filed :=
    (remembers_after Sample.textual (Sample.naming "AAAAAAAAAAAA")).consistent.filed
  have htaken : ∀ p pool, s.settlement.registry.get? p = some pool →
      utf8 pool.name = Sample.textual.runeId.toBytes := by
    intro p pool hget
    have hname : pool.name ∈ s.settlement.registry.pools.entries.map fun e => e.2.name :=
      List.mem_map.2 ⟨(p, pool), SortedMap.get?_eq_some_iff.1 hget, rfl⟩
    rw [hpools, List.mem_singleton] at hname
    rw [hname, hbytes]
  obtain ⟨⟨p, pool⟩, hentry, -⟩ := List.mem_map.1 (hpools ▸ List.mem_singleton_self _)
  have hget : s.settlement.registry.get? p = some pool := SortedMap.get?_eq_some_iff.2 hentry
  have hpath : pool.keys.path = primaryPath Sample.textual :=
    (hcustody.path_eq_primaryPath_iff hunset hget).2 (htaken p pool hget)
  have hinitialized := after_initKey hcustody Sample.answers_authentic hunset 0#64
  rw [registerPrimary_of_taken hcustody hfiled hunset hget (htaken p pool hget)] at hinitialized
  refine ⟨hvalid, hring, hanswered, hunset, ?_, ⟨p, pool, hget, hpath⟩, ?_⟩
  · intro q other hother hdiffers
    exact absurd ((hcustody.path_eq_primaryPath_iff hunset hother).2 (htaken q other hother))
      hdiffers
  · rw [hinitialized, ← hcalls, List.getElem?_concat_length]

end Session

end RuneSettlement
