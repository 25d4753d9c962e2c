import RuneSettlement.Proofs.Dependence

/-!
# Pools settle independently

Two calls that are aimed at different pools and involve no account in common do not see each other:
what the one changes is nothing that the other depends on. So they get the same answers in either
order and leave the same pools, slots, accounts and flows, and the same outcomes as long as the log
has room for both (`Settlement.pools_independent`).
-/

namespace RuneSettlement.Settlement

variable {s s' t : Settlement} {call x y : Call} {answer : Outcome Receipt} {p q : Address}
  {involved others : Address → Prop}

/-! ### Books file accounts under their identifiers -/

lemma Moves.filed (h : Moves s call answer s') (hbook : s.accounts.Filed) : s'.accounts.Filed := by
  cases h with
  | @committed _ _ _ _ _ account? =>
    cases account? with
    | none => exact hbook
    | some account => exact hbook.insert rfl rfl
  | claimed due =>
    obtain ⟨account, _, hfound, -, -, -, -, rfl⟩ := AccountBook.claim_eq_ok_iff.1 due
    exact hbook.insert rfl rfl
  | accrued within =>
    obtain ⟨account, _, hfound, -, -, -, rfl⟩ := AccountBook.accrue_eq_ok_iff.1 within
    have hid := hbook _ account hfound
    refine hbook.insert ?_ rfl
    exact hid
  | _ => exact hbook

/-- A book that starts so files every account under its own identifier after any operations, unless
they put another book in its place that does not. -/
theorem filed_reached {operations : List Operation} (hbook : s.accounts.Filed)
    (hbooks : ∀ book, .setAccounts book ∈ operations → book.Filed) :
    (s.reached operations).accounts.Filed := by
  induction operations using List.reverseRecOn with
  | nil => exact hbook
  | append_singleton operations operation ih =>
    have hreached := ih fun book hset => hbooks book (List.mem_append_left _ hset)
    rw [reached_concat]
    cases operation with
    | call call => exact (moves_perform _ call).filed hreached
    | register pool =>
      rw [operate_register]
      cases (s.reached operations).registry.register pool <;> exact hreached
    | setAccounts book => exact hbooks book (by simp)

/-! ### Calls at different pools -/

/-- What is changed at one pool is not seen from another, by a call that involves other accounts. -/
lemma Changes.alike (h : s.Changes s' p involved) (hpools : q ≠ p)
    (haccounts : ∀ a, others a → ¬ involved a) : s.Alike s' q others where
  pool := congrArg PoolView.pool (h.views q hpools)
  slot := congrArg PoolView.slot (h.views q hpools)
  flows := congrArg PoolView.flows (h.views q hpools)
  outcomes := congrArg PoolView.outcomes (h.views q hpools)
  accounts a ha := h.accounts a (haccounts a ha)
  rules := h.rules
  addresses := h.addresses
  cooldown := by rw [h.book]
  effects a ha := h.effects a (haccounts a ha)

lemma Alike.target?_eq (h : s.Alike t p involved) (call : Call) :
    call.target? t = call.target? s := by
  cases call with
  | finalize text poolKey now => rw [Call.target?, Call.target?, h.addressForKey]
  | rollback text poolKey => rw [Call.target?, Call.target?, h.addressForKey]
  | _ => rfl

lemma Alike.affected?_eq (h : s.Alike t p involved) {text poolKey : String}
    (hkeyed : s.registry.addressForKey poolKey = .ok p) :
    Call.affected? t text poolKey = Call.affected? s text poolKey := by
  unfold Call.affected? named?
  rw [h.addressForKey, hkeyed]
  cases Txid.parse text with
  | error refusal => rfl
  | ok id =>
    dsimp only
    rw [h.isPending]
    by_cases hpending : s.isPending p id = true
    · rw [if_pos hpending, Option.bind_some, Option.bind_some, h.slot]
    · rw [if_neg hpending]
      rfl

lemma Alike.involves_iff (h : s.Alike t p involved) (htarget : call.target? s = some p)
    (a : Address) : call.Involves t a ↔ call.Involves s a := by
  cases call with
  | finalize text poolKey now =>
    rw [Call.Involves, Call.Involves, h.affected?_eq (keyed_of_target htarget)]
  | rollback text poolKey =>
    rw [Call.Involves, Call.Involves, h.affected?_eq (keyed_of_target htarget)]
  | _ => exact Iff.rfl

/-- What is known of one call that is made with or without another one before it: the answer is the
same, and so is what the call leaves of its pool and its accounts; the other pools and accounts are
as the other call has left them. -/
structure Unaffected (s t : Settlement) (call : Call) (p : Address) : Prop where
  answer : (t.perform call).1 = (s.perform call).1
  same : (s.perform call).2.SameAt (t.perform call).2 p fun a => call.Involves s a
  changes : t.Changes (t.perform call).2 p fun a => call.Involves s a

/-- A call at another pool, with other accounts, does not affect a call. -/
lemma unaffected (hs : s.Reachable) (hbook : s.accounts.Filed)
    (hroom : s.resolutions.size + 2 ≤ s.resolutions.capacity) (hx : x.target? s = some p)
    (hy : y.target? s = some q) (hpools : p ≠ q)
    (haccounts : ∀ a, x.Involves s a → ¬ y.Involves s a) :
    s.Unaffected (s.perform y).2 x p := by
  obtain ⟨_, _, -, hremembers⟩ := hs.exists_remembers
  obtain ⟨_, _, -, hlater⟩ := (hs.perform y).exists_remembers
  have hmove := moves_perform s y
  have hspace : s.resolutions.size < s.resolutions.capacity := by omega
  have hchanges := hmove.changes hremembers.consistent hbook hspace hy
  have halike : s.Alike (s.perform y).2 p fun a => x.Involves s a :=
    hchanges.alike hpools haccounts
  obtain ⟨hcapacity, hsize⟩ := hmove.size_le hspace
  have hspace' : (s.perform y).2.resolutions.size < (s.perform y).2.resolutions.capacity := by
    omega
  obtain ⟨hanswer, hsame⟩ := perform_congr halike hremembers.consistent hspace hspace' hx
  have hx' : x.target? (s.perform y).2 = some p := (halike.target?_eq x).trans hx
  have hnext := (moves_perform (s.perform y).2 x).changes hlater.consistent (hmove.filed hbook)
    hspace' hx'
  have hinvolves : (fun a => x.Involves (s.perform y).2 a) = fun a => x.Involves s a := by
    funext a
    exact propext (halike.involves_iff hx a)
  rw [hinvolves] at hnext
  exact ⟨hanswer, hsame, hnext⟩

/-- Two calls that do not see each other, at different pools. -/
structure Apart (s : Settlement) (x y : Call) (p q : Address) : Prop where
  pools : p ≠ q
  accounts : ∀ a, x.Involves s a → ¬ y.Involves s a
  changes : s.Changes (s.perform x).2 p fun a => x.Involves s a
  changes' : s.Changes (s.perform y).2 q fun a => y.Involves s a
  unaffected : s.Unaffected (s.perform y).2 x p
  unaffected' : s.Unaffected (s.perform x).2 y q

namespace Apart

lemma symm (h : s.Apart x y p q) : s.Apart y x q p where
  pools := h.pools.symm
  accounts a hy hx := h.accounts a hx hy
  changes := h.changes'
  changes' := h.changes
  unaffected := h.unaffected'
  unaffected' := h.unaffected

/-- The pool of the first call is as that call leaves it, and so it is where it comes second. -/
lemma view_eq_first (h : s.Apart x y p q) :
    ((s.perform x).2.perform y).2.view p = ((s.perform y).2.perform x).2.view p := by
  rw [h.unaffected'.changes.views p h.pools, h.unaffected.same.view]

/-- Of every pool the states after both calls say the same. -/
lemma view_eq (h : s.Apart x y p q) (r : Address) :
    ((s.perform x).2.perform y).2.view r = ((s.perform y).2.perform x).2.view r := by
  by_cases hfirst : r = p
  · rw [hfirst]
    exact h.view_eq_first
  by_cases hsecond : r = q
  · rw [hsecond]
    exact h.symm.view_eq_first.symm
  · rw [h.unaffected'.changes.views r hsecond, h.changes.views r hfirst,
      h.unaffected.changes.views r hfirst, h.changes'.views r hsecond]

lemma account_eq_first (h : s.Apart x y p q) {a : Address} (hx : x.Involves s a) :
    ((s.perform x).2.perform y).2.accounts.get? a =
      ((s.perform y).2.perform x).2.accounts.get? a := by
  rw [h.unaffected'.changes.accounts a (h.accounts a hx), h.unaffected.same.accounts a hx]

lemma account_eq (h : s.Apart x y p q) (a : Address) :
    ((s.perform x).2.perform y).2.accounts.get? a =
      ((s.perform y).2.perform x).2.accounts.get? a := by
  by_cases hx : x.Involves s a
  · exact h.account_eq_first hx
  by_cases hy : y.Involves s a
  · exact (h.symm.account_eq_first hy).symm
  · rw [h.unaffected'.changes.accounts a hy, h.changes.accounts a hx,
      h.unaffected.changes.accounts a hx, h.changes'.accounts a hy]

lemma accounts_eq (h : s.Apart x y p q) :
    ((s.perform x).2.perform y).2.accounts = ((s.perform y).2.perform x).2.accounts := by
  have hentries : ((s.perform x).2.perform y).2.accounts.accounts =
      ((s.perform y).2.perform x).2.accounts.accounts := SortedMap.ext_get? h.account_eq
  rw [h.unaffected'.changes.book, h.changes.book, h.unaffected.changes.book, h.changes'.book,
    hentries]

lemma registry_eq (h : s.Apart x y p q) :
    ((s.perform x).2.perform y).2.registry = ((s.perform y).2.perform x).2.registry := by
  have hpools : ((s.perform x).2.perform y).2.registry.pools =
      ((s.perform y).2.perform x).2.registry.pools :=
    SortedMap.ext_get? fun r => congrArg PoolView.pool (h.view_eq r)
  have haddresses : ((s.perform x).2.perform y).2.registry.addresses =
      ((s.perform y).2.perform x).2.registry.addresses := by
    rw [h.unaffected'.changes.addresses, h.changes.addresses, h.unaffected.changes.addresses,
      h.changes'.addresses]
  generalize ((s.perform x).2.perform y).2.registry = after at *
  generalize ((s.perform y).2.perform x).2.registry = after' at *
  cases after
  cases after'
  exact congrArg₂ Registry.mk hpools haddresses

lemma flows_eq (h : s.Apart x y p q) :
    ((s.perform x).2.perform y).2.flows = ((s.perform y).2.perform x).2.flows :=
  congrArg FlowBook.mk (SortedMap.ext_get? fun r => congrArg PoolView.flows (h.view_eq r))

lemma status?_eq (h : s.Apart x y p q) (pool : Address) (txid : Txid) :
    ((s.perform x).2.perform y).2.status? pool txid =
      ((s.perform y).2.perform x).2.status? pool txid := by
  have hslot := congrArg PoolView.slot (h.view_eq pool)
  have houtcomes := congrArg PoolView.outcomes (h.view_eq pool)
  change pendingOn? _ pool = pendingOn? _ pool at hslot
  change ResolutionLog.get? _ pool = ResolutionLog.get? _ pool at houtcomes
  unfold status? isPending
  rw [hslot, houtcomes]

end Apart

/-- Calls at different pools that involve no account in common do not see each other. -/
lemma apart (hs : s.Reachable) (hbook : s.accounts.Filed)
    (hroom : s.resolutions.size + 2 ≤ s.resolutions.capacity) (hx : x.target? s = some p)
    (hy : y.target? s = some q) (hpools : p ≠ q)
    (haccounts : ∀ a, x.Involves s a → ¬ y.Involves s a) : s.Apart x y p q := by
  obtain ⟨_, _, -, hremembers⟩ := hs.exists_remembers
  have hspace : s.resolutions.size < s.resolutions.capacity := by omega
  have haccounts' : ∀ a, y.Involves s a → ¬ x.Involves s a := by
    intro a hya hxa
    exact haccounts a hxa hya
  exact {
    pools := hpools
    accounts := haccounts
    changes := (moves_perform s x).changes hremembers.consistent hbook hspace hx
    changes' := (moves_perform s y).changes hremembers.consistent hbook hspace hy
    unaffected := unaffected hs hbook hroom hx hy hpools haccounts
    unaffected' := unaffected hs hbook hroom hy hx hpools.symm haccounts' }

/-- Two calls that are aimed at different pools and involve no account in common get the same
answers in either order, and leave the same committed pools, pending slots, accounts and flows and
the same status of every transaction on every pool, if the log has room for two more outcomes.
Books file accounts under their identifiers, see `filed_reached`. -/
theorem pools_independent (hs : s.Reachable) (hbook : s.accounts.Filed)
    (hroom : s.resolutions.size + 2 ≤ s.resolutions.capacity) (hx : x.target? s = some p)
    (hy : y.target? s = some q) (hpools : p ≠ q)
    (haccounts : ∀ a, x.Involves s a → ¬ y.Involves s a) :
    let xy := (s.perform x).2.perform y
    let yx := (s.perform y).2.perform x
    yx.1 = (s.perform x).1 ∧ xy.1 = (s.perform y).1 ∧ xy.2.registry = yx.2.registry ∧
      xy.2.pending = yx.2.pending ∧ xy.2.accounts = yx.2.accounts ∧ xy.2.flows = yx.2.flows ∧
      ∀ pool txid, xy.2.status? pool txid = yx.2.status? pool txid := by
  intro xy yx
  have hapart : s.Apart x y p q := apart hs hbook hroom hx hy hpools haccounts
  have hpending : xy.2.pending = yx.2.pending :=
    SortedMap.ext_get? fun r => congrArg PoolView.slot (hapart.view_eq r)
  exact ⟨hapart.unaffected.answer, hapart.unaffected'.answer, hapart.registry_eq, hpending,
    hapart.accounts_eq, hapart.flows_eq, hapart.status?_eq⟩

namespace Sample

/-- Registers the initiator's account, on a pool that holds nothing yet. -/
def enrolment (pool initiator : Address) (n : UInt8) : ExecuteRequest :=
  ⟨"00", (txid n).text, ⟨initiator, [{ swap with
    action := "register"
    pool
    spends := []
    receives := [(OutPoint.mk (txid n) 0#32).text]
    inputs := [⟨initiator, Coin.native 10#64⟩]
    outputs := [] }]⟩, 0#32, 0#32⟩

/-- Two pools, on one of which a registration is staged. -/
def enrolling : List Call :=
  [.registerPool "name" ⟨"untweaked", "tweaked", [], "pool"⟩ token 100#128 "",
    .registerPool "other" ⟨"other", "other", [], "quay"⟩ token 100#128 "",
    .execute (enrolment "pool" "trader" 2) [] 0#64]

end Sample

theorem pools_independent_sample :
    let s := (create Sample.rules (.create 0#64 0#128) 10).reached (Sample.enrolling.map .call)
    let x := Call.finalize (Sample.txid 2).text "untweaked" 1#64
    let y := Call.execute (Sample.enrolment "quay" "keeper" 3) [] 1#64
    let xy := (s.perform x).2.perform y
    let yx := (s.perform y).2.perform x
    yx.1 = .ok .done ∧ xy.1 = .ok (.staged ⟨Sample.txid 3, "quay", "other", [], [0]⟩) ∧
      xy.2.accounts = yx.2.accounts ∧ yx.2.accounts ≠ s.accounts := by
  intro s x y xy yx
  obtain ⟨hx, hy, hroom, haffected, hdone, hstaged, hregistered⟩ :
      x.target? s = some "pool" ∧ y.target? s = some "quay" ∧
      s.resolutions.size + 2 ≤ s.resolutions.capacity ∧
      Call.affected? s (Sample.txid 2).text "untweaked" = some "trader" ∧
      (s.perform x).1 = .ok .done ∧
      (s.perform y).1 = .ok (.staged ⟨Sample.txid 3, "quay", "other", [], [0]⟩) ∧
      yx.2.accounts ≠ s.accounts := by
    decide +kernel
  have hbook : s.accounts.Filed := by
    apply filed_reached
    · intro id account hfound
      cases hfound
    · intro book hset
      obtain ⟨_, -, hcall⟩ := List.mem_map.1 hset
      cases hcall
  have haccounts : ∀ a, x.Involves s a → ¬ y.Involves s a := by
    rintro a hxa ⟨hinitiator, -⟩
    obtain rfl : "trader" = a := Option.some.inj (haffected.symm.trans hxa)
    exact absurd hinitiator (by decide)
  obtain ⟨hanswerx, hanswery, -, -, hsame, -, -⟩ :=
    pools_independent ⟨_, _, _, _, rfl⟩ hbook hroom hx hy (by decide) haccounts
  exact ⟨hanswerx.trans hdone, hanswery.trans hstaged, hsame, hregistered⟩

end RuneSettlement.Settlement
