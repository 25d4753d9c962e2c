import Mathlib.Data.List.DropRight
import Mathlib.Tactic.Lemma
import RuneSettlement.ResolutionLog

/-!
# The resolution log is a bounded queue

The outcomes and the order of their eviction are kept apart. `ResolutionLog.Lists` ties both to one
list of outcomes, the oldest first. Recording a transaction that is not listed appends it and keeps
the last outcomes, as many as the log has room for (`ResolutionLog.Lists.enqueue`). So a log after
any records lists what a bounded queue does, the last records that took effect
(`ResolutionLog.lists_queue`).
-/

namespace RuneSettlement

/-! ### The last elements of a list -/

section Recent

variable {α : Type} {earlier later : List α} {a : α} {n : Nat}

lemma rtake_append_cons_of_lt (earlier : List α) (a : α) (h : later.length < n) :
    ∃ kept, (earlier ++ a :: later).rtake n = kept ++ a :: later := by
  have hle : (earlier ++ a :: later).length - n ≤ earlier.length := by
    rw [List.length_append, List.length_cons]
    omega
  rw [List.rtake, List.drop_append_of_le_length hle]
  exact ⟨_, rfl⟩

lemma mem_rtake_of_lt (earlier : List α) (a : α) (h : later.length < n) :
    a ∈ (earlier ++ a :: later).rtake n := by
  obtain ⟨kept, hkept⟩ := rtake_append_cons_of_lt earlier a h
  rw [hkept]
  exact List.mem_append_right kept List.mem_cons_self

lemma rtake_append_of_eq (h : later.length = n) : (earlier ++ later).rtake n = later := by
  have hlength : (earlier ++ later).length - n = earlier.length := by
    rw [List.length_append]
    omega
  rw [List.rtake, hlength, List.drop_left]

lemma exists_split_of_mem_rtake {l : List α} (h : a ∈ l.rtake n) :
    ∃ earlier later, l = earlier ++ a :: later ∧ later.length < n := by
  obtain ⟨before, later, hsplit⟩ := List.append_of_mem h
  have hlength := congrArg List.length hsplit
  rw [List.rtake, List.length_drop, List.length_append, List.length_cons] at hlength
  refine ⟨l.take (l.length - n) ++ before, later, ?_, by omega⟩
  rw [List.append_assoc, ← hsplit, List.rtake, List.take_append_drop]

lemma rtake_of_length_le {l : List α} (h : l.length ≤ n) : l.rtake n = l := by
  rw [List.rtake, Nat.sub_eq_zero_of_le h, List.drop_zero]

/-- What is dropped before more is appended would be dropped afterwards. -/
lemma rtake_append_rtake (l m : List α) (n : Nat) :
    (l.rtake n ++ m).rtake n = (l ++ m).rtake n := by
  have hdrop : l.rtake n ++ m = (l ++ m).drop (l.length - n) := by
    rw [List.rtake, List.drop_append_of_le_length (Nat.sub_le _ _)]
  rw [hdrop, List.rtake, List.rtake, List.drop_drop, List.length_drop, List.length_append]
  congr 1
  omega

end Recent

namespace ResolutionLog

/-- A transaction on a pool with the way it ended. -/
abbrev Entry := (Address × Txid) × Resolution

/-- The log holds the outcomes of a list, in this order. -/
structure Lists (log : ResolutionLog) (entries : List Entry) : Prop where
  outcomes : log.outcomes.entries.Perm entries
  order : log.order = entries.map Prod.fst
  bounded : entries.length ≤ log.capacity

variable {log : ResolutionLog} {entries : List Entry} {key : Address × Txid}
  {resolution : Resolution}

lemma lists_create (capacity : Nat) : (create capacity).Lists [] where
  outcomes := .nil
  order := rfl
  bounded := Nat.zero_le _

/-- No transaction is listed twice. -/
lemma Lists.nodup (h : log.Lists entries) : (entries.map Prod.fst).Nodup :=
  (h.outcomes.map Prod.fst).nodup_iff.1 log.outcomes.nodup_keys

lemma Lists.size_eq (h : log.Lists entries) : log.size = entries.length := h.outcomes.length_eq

theorem Lists.get?_eq_some_iff (h : log.Lists entries) {pool : Address} {txid : Txid} :
    log.get? pool txid = some resolution ↔ ((pool, txid), resolution) ∈ entries := by
  rw [get?, SortedMap.get?_eq_some_iff, h.outcomes.mem_iff]

theorem Lists.get?_eq_none_iff (h : log.Lists entries) {pool : Address} {txid : Txid} :
    log.get? pool txid = none ↔ (pool, txid) ∉ entries.map Prod.fst := by
  rw [Option.eq_none_iff_forall_ne_some]
  constructor
  · intro hnone hmem
    obtain ⟨⟨_, resolution⟩, hentry, rfl⟩ := List.mem_map.1 hmem
    exact hnone resolution (h.get?_eq_some_iff.2 hentry)
  · intro hfresh resolution hsome
    exact hfresh (List.mem_map_of_mem (h.get?_eq_some_iff.1 hsome))

lemma Lists.append (h : log.Lists entries) (hfresh : log.outcomes.get? key = none)
    (hroom : entries.length < log.capacity) :
    (log.append key resolution).Lists (entries ++ [(key, resolution)]) where
  outcomes := by
    have hperm := SortedMap.perm_entries_insert resolution hfresh
    exact hperm.trans ((h.outcomes.cons _).trans (List.perm_append_singleton _ _).symm)
  order := by
    rw [ResolutionLog.append, h.order, List.map_append]
    rfl
  bounded := by
    rw [List.length_append, List.length_singleton]
    exact hroom

/-- A full log forgets the oldest outcome. -/
lemma Lists.evict {oldest : Entry} (h : log.Lists (oldest :: entries)) :
    log.evict.Lists entries := by
  have horder : log.order = oldest.1 :: entries.map Prod.fst := h.order
  have hevict : log.evict =
      { log with outcomes := log.outcomes.erase oldest.1, order := entries.map Prod.fst } := by
    rw [ResolutionLog.evict, horder]
  have holdest : log.outcomes.get? oldest.1 = some oldest.2 :=
    h.get?_eq_some_iff.2 List.mem_cons_self
  have hperm := (SortedMap.perm_entries_erase holdest).symm.trans h.outcomes
  have hbounded := h.bounded
  rw [List.length_cons] at hbounded
  rw [hevict]
  exact ⟨hperm.cons_inv, rfl, Nat.le_of_succ_le hbounded⟩

lemma evict_capacity (log : ResolutionLog) : log.evict.capacity = log.capacity := by
  unfold ResolutionLog.evict
  split <;> rfl

lemma record_capacity (log : ResolutionLog) (key : Address × Txid) (resolution : Resolution) :
    (log.record key resolution).capacity = log.capacity := by
  unfold record
  split
  · rfl
  · split
    · exact log.evict_capacity
    · rfl

/-- What a record does to the listed outcomes. A transaction that is listed changes nothing. Any
other comes last, and where `n` are listed the oldest is dropped. -/
def enqueue (n : Nat) (entries : List Entry) (entry : Entry) : List Entry :=
  if entry.1 ∈ entries.map Prod.fst then entries
  else (if entries.length < n then entries else entries.tail) ++ [entry]

lemma enqueue_of_listed {n : Nat} {entry : Entry} (h : entry.1 ∈ entries.map Prod.fst) :
    enqueue n entries entry = entries := if_pos h

lemma enqueue_of_fresh {n : Nat} {entry : Entry} (h : entry.1 ∉ entries.map Prod.fst) :
    enqueue n entries entry = (if entries.length < n then entries else entries.tail) ++ [entry] :=
  if_neg h

/-- Of a list with a new outcome the last `n` are kept. -/
lemma enqueue_eq_rtake {n : Nat} {entry : Entry} (hroom : 0 < n) (hbounded : entries.length ≤ n)
    (hfresh : entry.1 ∉ entries.map Prod.fst) :
    enqueue n entries entry = (entries ++ [entry]).rtake n := by
  obtain ⟨m, rfl⟩ := Nat.exists_eq_succ_of_ne_zero hroom.ne'
  rw [enqueue_of_fresh hfresh, Nat.succ_eq_add_one, List.rtake_concat_succ]
  by_cases hlt : entries.length < m + 1
  · rw [if_pos hlt, rtake_of_length_le (Nat.le_of_lt_succ hlt)]
  · have hdropped : entries.length - m = 1 := by omega
    rw [if_neg hlt, List.rtake, hdropped, List.drop_one]

/-- A transaction that is listed changes neither its outcome nor its age. -/
lemma Lists.record_of_listed (h : log.Lists entries) (hlisted : key ∈ entries.map Prod.fst)
    (resolution : Resolution) : log.record key resolution = log := by
  have hpresent : log.outcomes.contains key = true := by
    by_contra habsent
    exact h.get?_eq_none_iff.1 (Option.not_isSome_iff_eq_none.1 habsent) hlisted
  rw [ResolutionLog.record, if_pos hpresent]

/-- Order and map are updated apart, and yet still list the same outcomes. -/
theorem Lists.enqueue (h : log.Lists entries) (hroom : 0 < log.capacity) (key : Address × Txid)
    (resolution : Resolution) :
    (log.record key resolution).Lists (enqueue log.capacity entries (key, resolution)) := by
  by_cases hlisted : key ∈ entries.map Prod.fst
  · rw [h.record_of_listed hlisted, enqueue_of_listed hlisted]
    exact h
  · have hfresh : log.outcomes.get? key = none := h.get?_eq_none_iff.2 hlisted
    have habsent : log.outcomes.contains key = false := by rw [SortedMap.contains, hfresh]; rfl
    rw [ResolutionLog.record, habsent, if_neg Bool.false_ne_true, h.size_eq,
      enqueue_of_fresh hlisted]
    by_cases hlt : entries.length < log.capacity
    · rw [if_neg (Nat.not_le.2 hlt), if_pos hlt]
      exact h.append hfresh hlt
    · rw [if_pos (Nat.not_lt.1 hlt), if_neg hlt]
      cases entries with
      | nil => exact absurd hroom hlt
      | cons oldest entries =>
        have hevicted := h.evict
        apply hevicted.append
        · exact hevicted.get?_eq_none_iff.2 (List.not_mem_of_not_mem_cons hlisted)
        · rw [evict_capacity]
          exact h.bounded

/-- A new outcome comes last, and of the others as many as there is room for are kept. -/
theorem Lists.record (h : log.Lists entries) (resolution : Resolution) (hroom : 0 < log.capacity)
    (hfresh : log.outcomes.get? key = none) :
    (log.record key resolution).Lists ((entries ++ [(key, resolution)]).rtake log.capacity) := by
  have hunlisted : key ∉ entries.map Prod.fst := h.get?_eq_none_iff.1 hfresh
  rw [← enqueue_eq_rtake hroom h.bounded hunlisted]
  exact h.enqueue hroom key resolution

lemma Lists.get?_record {pool : Address} {txid : Txid} (h : log.Lists entries)
    (resolution : Resolution) (hroom : 0 < log.capacity) (hfresh : log.get? pool txid = none) :
    (log.record (pool, txid) resolution).get? pool txid = some resolution := by
  obtain ⟨n, hn⟩ := Nat.exists_eq_succ_of_ne_zero hroom.ne'
  rw [(h.record resolution hroom hfresh).get?_eq_some_iff, hn, Nat.succ_eq_add_one,
    List.rtake_concat_succ]
  exact List.mem_append_right _ (List.mem_singleton_self _)

/-! ### Records one after another -/

/-- The log after some records. -/
def recordAll (log : ResolutionLog) (records : List Entry) : ResolutionLog :=
  records.foldl (fun log entry => log.record entry.1 entry.2) log

/-- The outcomes that a queue of `n` lists after some records. -/
def queue (n : Nat) (records : List Entry) : List Entry := records.foldl (enqueue n) []

/-- The records that change a queue of `n` outcomes. -/
def effective (n : Nat) (entries : List Entry) : List Entry → List Entry
  | [] => []
  | entry :: records =>
    if entry.1 ∈ entries.map Prod.fst then effective n entries records
    else entry :: effective n (enqueue n entries entry) records

lemma recordAll_capacity (log : ResolutionLog) (records : List Entry) :
    (log.recordAll records).capacity = log.capacity := by
  induction records using List.reverseRecOn with
  | nil => rfl
  | append_singleton records entry ih =>
    rw [recordAll, List.foldl_append]
    exact (record_capacity _ _ _).trans ih

lemma length_enqueue_le {n : Nat} (hroom : 0 < n) (hbounded : entries.length ≤ n) (entry : Entry) :
    (enqueue n entries entry).length ≤ n := by
  by_cases hlisted : entry.1 ∈ entries.map Prod.fst
  · rw [enqueue_of_listed hlisted]
    exact hbounded
  · rw [enqueue_of_fresh hlisted, List.length_append, List.length_singleton]
    split
    · next hlt => exact hlt
    · rw [List.length_tail]
      omega

/-- A queue lists the last of the records that changed it. -/
lemma foldl_enqueue {n : Nat} (hroom : 0 < n) (hbounded : entries.length ≤ n)
    (records : List Entry) :
    records.foldl (enqueue n) entries = (entries ++ effective n entries records).rtake n := by
  induction records generalizing entries with
  | nil =>
    rw [effective, List.append_nil, rtake_of_length_le hbounded]
    rfl
  | cons entry records ih =>
    rw [List.foldl_cons, ih (length_enqueue_le hroom hbounded entry), effective]
    by_cases hlisted : entry.1 ∈ entries.map Prod.fst
    · rw [if_pos hlisted, enqueue_of_listed hlisted]
    · rw [if_neg hlisted, enqueue_eq_rtake hroom hbounded hlisted, rtake_append_rtake,
        List.append_assoc, List.singleton_append]

lemma queue_eq_rtake {n : Nat} (hroom : 0 < n) (records : List Entry) :
    queue n records = (effective n [] records).rtake n :=
  foldl_enqueue hroom (List.length_nil.trans_le (Nat.zero_le n)) records

lemma lists_recordAll (hlog : log.Lists entries) (hroom : 0 < log.capacity)
    (records : List Entry) :
    (log.recordAll records).Lists (records.foldl (enqueue log.capacity) entries) := by
  induction records using List.reverseRecOn with
  | nil => exact hlog
  | append_singleton records entry ih =>
    have hcapacity := log.recordAll_capacity records
    rw [← hcapacity] at hroom
    have hnext := ih.enqueue hroom entry.1 entry.2
    rw [hcapacity] at hnext
    rw [recordAll, List.foldl_append, List.foldl_append]
    exact hnext

/-- Where no transaction occurs twice among the last `n` entries, one of these is the last of its
transaction. -/
lemma mem_rtake_iff {l : List Entry} {n : Nat} (hnodup : ((l.rtake n).map Prod.fst).Nodup)
    {entry : Entry} :
    entry ∈ l.rtake n ↔ ∃ earlier later, l = earlier ++ entry :: later ∧
      entry.1 ∉ later.map Prod.fst ∧ later.length < n := by
  constructor
  · intro hentry
    obtain ⟨earlier, later, rfl, hlength⟩ := exists_split_of_mem_rtake hentry
    refine ⟨earlier, later, rfl, ?_, hlength⟩
    obtain ⟨kept, hkept⟩ := rtake_append_cons_of_lt earlier entry hlength
    rw [hkept, List.map_append, List.map_cons] at hnodup
    exact (List.nodup_cons.1 (List.nodup_append.1 hnodup).2.1).1
  · rintro ⟨earlier, later, rfl, -, hlength⟩
    exact mem_rtake_of_lt earlier entry hlength

/-- The log is a queue of bounded length. Whatever is recorded, it lists what the queue does, so
transactions are known by the last records that took effect, and order and map never drift apart. -/
theorem lists_queue (capacity : Nat) (records : List Entry) :
    let n := max 1 capacity
    let log := (create capacity).recordAll records
    let entries := queue n records
    log.Lists entries ∧
    (∀ pool txid resolution,
      log.get? pool txid = some resolution ↔ ((pool, txid), resolution) ∈ entries) ∧
    (∀ key resolution, key ∈ entries.map Prod.fst → log.record key resolution = log) ∧
    (∀ key resolution, key ∉ entries.map Prod.fst →
      (log.record key resolution).Lists
        ((if entries.length < n then entries else entries.tail) ++ [(key, resolution)])) ∧
    (∀ pool txid resolution, log.get? pool txid = some resolution ↔
      ∃ earlier later, effective n [] records = earlier ++ ((pool, txid), resolution) :: later ∧
        (pool, txid) ∉ later.map Prod.fst ∧ later.length < n) ∧
    log.size = entries.length ∧ log.size ≤ n ∧
    log.order.Nodup ∧ log.order.Perm log.outcomes.keys := by
  intro n log entries
  have hroom : 0 < n := Nat.le_max_left 1 capacity
  have hcapacity : log.capacity = n := recordAll_capacity _ records
  have hlists : log.Lists entries := lists_recordAll (lists_create capacity) hroom records
  have hentries : entries = (effective n [] records).rtake n := queue_eq_rtake hroom records
  refine ⟨hlists, fun _ _ _ => hlists.get?_eq_some_iff, ?_, ?_, ?_, hlists.size_eq, ?_, ?_, ?_⟩
  · intro key resolution hlisted
    exact hlists.record_of_listed hlisted resolution
  · intro key resolution hfresh
    have hnext := hlists.enqueue (hcapacity ▸ hroom) key resolution
    rw [hcapacity, enqueue_of_fresh hfresh] at hnext
    exact hnext
  · intro pool txid resolution
    have hnodup := hlists.nodup
    rw [hentries] at hnodup
    rw [hlists.get?_eq_some_iff, hentries]
    exact mem_rtake_iff hnodup
  · rw [hlists.size_eq, ← hcapacity]
    exact hlists.bounded
  · rw [hlists.order]
    exact hlists.nodup
  · rw [hlists.order]
    exact (hlists.outcomes.map Prod.fst).symm

/-- A log made for no outcome still holds one, and the first of its transaction. -/
example :
    let txid : Txid := ⟨.take 32 [1]⟩
    ((create 0).recordAll [(("pool", txid), .finalized), (("pool", txid), .rolledBack)]).get? "pool"
      txid = some .finalized := by
  decide +kernel

end ResolutionLog

end RuneSettlement
