import RuneSettlement.Exchange.State
import RuneSettlement.Proofs.Identity
import RuneSettlement.Proofs.TextOrder

/-!
# Walks through the pools

A reader walks through the pools page by page, from the last address of each page to the next, while
operations go on in between. A page holds the pools that lie right beyond its cursor, so what it
leaves out lies beyond its last address, and no pool disappears before the reader gets there. A walk
that ends in an empty page has listed every pool that was there at its beginning and every pool that
joined beyond the reader, each of them once (`Settlement.walk_lists_once`).
-/

namespace RuneSettlement

/-- Whether an address lies beyond the last one that a reader has seen. -/
def Beyond (cursor : Option Address) (p : Address) : Prop :=
  ∀ last, cursor = some last → utf8 last < utf8 p

lemma beyond_some {last p : Address} : Beyond (some last) p ↔ utf8 last < utf8 p := by
  simp [Beyond]

lemma Beyond.trans {cursor : Option Address} {p q : Address} (hp : Beyond cursor p)
    (hq : utf8 p < utf8 q) : Beyond cursor q := by
  intro last hlast
  exact List.lt_trans (hp last hlast) hq

/-- In an ordered list, what is not among the first few lies beyond the last of them. -/
lemma mem_take_or_getLast?_lt {α : Type} {R : α → α → Prop} {xs : List α} {x : α} {n : Nat}
    (hordered : xs.Pairwise R) (hx : x ∈ xs) (hn : 0 < n) :
    x ∈ xs.take n ∨ ∃ last, (xs.take n).getLast? = some last ∧ R last x := by
  rw [← List.take_append_drop n xs] at hordered hx
  rcases List.mem_append.1 hx with htaken | hleft
  · exact .inl htaken
  · right
    have hne : xs.take n ≠ [] := by
      intro hempty
      have hxs : xs = [] := by simpa [Nat.ne_of_gt hn] using hempty
      rw [hxs] at hleft
      simp at hleft
    refine ⟨(xs.take n).getLast hne, List.getLast?_eq_some_getLast hne, ?_⟩
    exact (List.pairwise_append.1 hordered).2.2 _ (List.getLast_mem hne) x hleft

namespace Registry

variable {r : Registry} {cursor : Option Address} {limit : Nat}

/-- What lies beyond the cursor of a reader. -/
def remaining (r : Registry) : Option Address → List (Address × Pool)
  | some last => r.pools.beyond last
  | none => r.pools.entries

lemma page_eq (r : Registry) (cursor : Option Address) (limit : Nat) :
    r.page cursor limit = ((r.remaining cursor).take limit).map fun e => e.2.info := by
  cases cursor <;> rfl

lemma mem_remaining_iff {p : Address} {pool : Pool} :
    (p, pool) ∈ r.remaining cursor ↔ r.get? p = some pool ∧ Beyond cursor p := by
  cases cursor with
  | none => simp [remaining, Registry.get?, SortedMap.get?_eq_some_iff, Beyond]
  | some last =>
    rw [beyond_some, ← Key.before_iff_utf8_lt]
    simp [remaining, SortedMap.beyond, Registry.get?, SortedMap.get?_eq_some_iff]

lemma remaining_ascending (r : Registry) (cursor : Option Address) :
    (r.remaining cursor).Pairwise fun a b => utf8 a.1 < utf8 b.1 := by
  have hentries : r.pools.entries.Pairwise fun a b => utf8 a.1 < utf8 b.1 :=
    r.pools.ascending.imp Key.before_iff_utf8_lt.1
  cases cursor with
  | none => exact hentries
  | some last => exact hentries.filter _

/-- What a page holds are committed pools, as they are, beyond its cursor. -/
lemma of_mem_page (hfiled : r.Filed) {info : PoolInfo} (h : info ∈ r.page cursor limit) :
    r.poolInfo? info.address = some info ∧ Beyond cursor info.address := by
  rw [page_eq, List.mem_map] at h
  obtain ⟨⟨p, pool⟩, hmem, rfl⟩ := h
  obtain ⟨hpool, hbeyond⟩ := mem_remaining_iff.1 (List.mem_of_mem_take hmem)
  have haddress : pool.info.address = p := hfiled p pool hpool
  rw [haddress, poolInfo?, hpool]
  exact ⟨rfl, hbeyond⟩

lemma page_ascending (hfiled : r.Filed) (cursor : Option Address) (limit : Nat) :
    (r.page cursor limit).Pairwise fun a b => utf8 a.address < utf8 b.address := by
  rw [page_eq, List.pairwise_map]
  apply ((r.remaining_ascending cursor).sublist (List.take_sublist limit _)).imp_of_mem
  intro a b ha hb hlt
  have hfound : ∀ e ∈ (r.remaining cursor).take limit, e.2.info.address = e.1 := by
    intro e he
    exact hfiled e.1 e.2 (mem_remaining_iff.1 (List.mem_of_mem_take he)).1
  rw [hfound a ha, hfound b hb]
  exact hlt

/-- A pool beyond the cursor is on the page or beyond the last pool of the page. -/
lemma mem_page_or_beyond (hfiled : r.Filed) {p : Address} {pool : Pool}
    (hpool : r.get? p = some pool) (hbeyond : Beyond cursor p) (hlimit : 0 < limit) :
    p ∈ (r.page cursor limit).map PoolInfo.address ∨
      ∃ last, (r.page cursor limit).getLast? = some last ∧ utf8 last.address < utf8 p := by
  have hmem : (p, pool) ∈ r.remaining cursor := mem_remaining_iff.2 ⟨hpool, hbeyond⟩
  rw [page_eq, List.getLast?_map]
  rcases mem_take_or_getLast?_lt (r.remaining_ascending cursor) hmem hlimit with
    htaken | ⟨⟨q, other⟩, hlast, hlt⟩
  · left
    rw [List.mem_map]
    exact ⟨pool.info, List.mem_map.2 ⟨_, htaken, rfl⟩, hfiled p pool hpool⟩
  · right
    refine ⟨other.info, by rw [hlast]; rfl, ?_⟩
    have hmem := List.mem_of_mem_take (List.mem_of_getLast? hlast)
    have haddress : other.info.address = q := hfiled q other (mem_remaining_iff.1 hmem).1
    rw [haddress]
    exact hlt

end Registry

namespace Settlement

/-- The list that a reader asks for a page: all pools, or what an exchange shows of them. -/
inductive Reader
  | registry (limit : Nat)
  | exchange (config : Config) (primary : Option Address) (limit : BitVec 32)

namespace Reader

/-- The greatest number of pools on a page. -/
def limit : Reader → Nat
  | .registry limit => limit
  | .exchange config _ limit => min limit.toNat config.maxPageSize.toNat

/-- The page that the reader gets beyond a cursor. -/
def read (s : Settlement) (cursor : Option Address) : Reader → List PoolInfo
  | .registry limit => s.registry.page cursor limit
  | .exchange config primary limit => Exchange.poolPage ⟨config, s, primary⟩ ⟨cursor, limit⟩

lemma read_eq (reader : Reader) (s : Settlement) (cursor : Option Address) :
    reader.read s cursor = s.registry.page cursor reader.limit := by
  cases reader <;> rfl

end Reader

/-- One page that is asked for and what happens before the next one is. -/
structure Turn where
  reader : Reader
  operations : List Operation

/-- One page of a walk, the state that it shows and where the walk had come to. -/
structure Visit where
  state : Settlement
  cursor : Option Address
  page : List PoolInfo

/-- A walk asks for each page from the last address of the page before and ends with the first empty
page. -/
def walk (s : Settlement) (cursor : Option Address) : List Turn → List Visit
  | [] => []
  | turn :: turns =>
    let page := turn.reader.read s cursor
    let rest :=
      match page.getLast? with
      | none => []
      | some last => (s.reached turn.operations).walk (some last.address) turns
    ⟨s, cursor, page⟩ :: rest

/-- The addresses on the pages of a walk, in the order of the walk. -/
def listed (visits : List Visit) : List Address :=
  (visits.flatMap Visit.page).map PoolInfo.address

/-- Whether a walk has come to an empty page. -/
def Completed (visits : List Visit) : Prop :=
  ∃ visit, visits.getLast? = some visit ∧ visit.page = []

def Registered (s : Settlement) (p : Address) : Prop := ∃ pool, s.registry.get? p = some pool

/-- Between two pages of a walk a pool is registered, beyond the cursor at that moment. -/
def Joins (visits : List Visit) (p : Address) : Prop :=
  ∃ earlier visit next later, visits = earlier ++ visit :: next :: later ∧
    ¬ visit.state.Registered p ∧ next.state.Registered p ∧ Beyond next.cursor p

variable {s : Settlement} {cursor : Option Address} {turn : Turn} {turns : List Turn}
  {visit next : Visit} {visits later : List Visit} {p : Address}

lemma Registered.reached (h : s.Registered p) (hs : s.Consistent) (operations : List Operation) :
    (s.reached operations).Registered p := by
  obtain ⟨pool, hpool⟩ := h
  obtain ⟨kept, hkept, -⟩ := exists_identity_eq_reached hs hpool operations
  exact ⟨kept, hkept⟩

@[simp] lemma listed_nil : listed [] = [] := rfl

@[simp] lemma listed_cons :
    listed (visit :: visits) = visit.page.map PoolInfo.address ++ listed visits := by
  simp [listed]

lemma Joins.cons (h : Joins visits p) (visit : Visit) : Joins (visit :: visits) p := by
  obtain ⟨earlier, before, next, later, rfl, hjoin⟩ := h
  exact ⟨visit :: earlier, before, next, later, rfl, hjoin⟩

lemma joins_cons_iff :
    Joins (visit :: next :: later) p ↔
      (¬ visit.state.Registered p ∧ next.state.Registered p ∧ Beyond next.cursor p) ∨
        Joins (next :: later) p := by
  constructor
  · rintro ⟨earlier, before, after, rest, hsplit, hjoin⟩
    cases earlier with
    | nil =>
      rw [List.nil_append] at hsplit
      cases hsplit
      exact .inl hjoin
    | cons first earlier =>
      rw [List.cons_append, List.cons.injEq] at hsplit
      exact .inr ⟨earlier, before, after, rest, hsplit.2, hjoin⟩
  · rintro (hjoin | hjoin)
    · exact ⟨[], visit, next, later, rfl, hjoin⟩
    · exact hjoin.cons visit

lemma not_joins_singleton : ¬ Joins [visit] p := by
  rintro ⟨earlier, before, after, rest, hsplit, -⟩
  have hlength := congrArg List.length hsplit
  simp only [List.length_nil, List.length_append, List.length_cons] at hlength
  omega

/-- A walk ends with an empty page, and from any other page it goes on in the state then. -/
lemma walk_cons_cases (s : Settlement) (cursor : Option Address) (turn : Turn) (turns : List Turn) :
    (turn.reader.read s cursor = [] ∧ s.walk cursor (turn :: turns) = [⟨s, cursor, []⟩]) ∨
      ∃ last, (turn.reader.read s cursor).getLast? = some last ∧
        s.walk cursor (turn :: turns) = ⟨s, cursor, turn.reader.read s cursor⟩ ::
          (s.reached turn.operations).walk (some last.address) turns := by
  cases hlast : (turn.reader.read s cursor).getLast? with
  | none =>
    have hempty := List.getLast?_eq_none_iff.1 hlast
    refine .inl ⟨hempty, ?_⟩
    rw [walk, hempty]
    rfl
  | some last =>
    refine .inr ⟨last, rfl, ?_⟩
    rw [walk, hlast]

/-- The first page of a walk is read where the walk starts. -/
lemma exists_walk_eq_cons (h : s.walk cursor turns ≠ []) :
    ∃ visit later, s.walk cursor turns = visit :: later ∧ visit.state = s ∧
      visit.cursor = cursor := by
  cases turns with
  | nil => exact absurd rfl h
  | cons turn turns => exact ⟨_, _, rfl, rfl, rfl⟩

/-- A page shows pools as they are committed when it is read, beyond its cursor. -/
lemma of_mem_read (hs : s.Consistent) {info : PoolInfo} (h : info ∈ turn.reader.read s cursor) :
    s.registry.poolInfo? info.address = some info ∧ Beyond cursor info.address := by
  rw [Reader.read_eq] at h
  exact Registry.of_mem_page hs.filed h

/-- What a walk lists lies beyond where the walk starts. -/
lemma beyond_of_mem_listed (hs : s.Consistent) (h : p ∈ listed (s.walk cursor turns)) :
    Beyond cursor p := by
  induction turns generalizing s cursor with
  | nil => simp [walk] at h
  | cons turn turns ih =>
    rcases s.walk_cons_cases cursor turn turns with ⟨-, hwalk⟩ | ⟨last, hlast, hwalk⟩
    · rw [hwalk] at h
      simp at h
    · rw [hwalk, listed_cons, List.mem_append, List.mem_map] at h
      rcases h with ⟨info, hinfo, rfl⟩ | hrest
      · exact (of_mem_read hs hinfo).2
      · have hnext := ih (consistent_reached hs turn.operations) hrest
        exact (of_mem_read hs (List.mem_of_getLast? hlast)).2.trans (beyond_some.1 hnext)

lemma listed_ascending (hs : s.Consistent) (cursor : Option Address) (turns : List Turn) :
    (listed (s.walk cursor turns)).Pairwise fun p q => utf8 p < utf8 q := by
  induction turns generalizing s cursor with
  | nil => exact .nil
  | cons turn turns ih =>
    rcases s.walk_cons_cases cursor turn turns with ⟨-, hwalk⟩ | ⟨last, hlast, hwalk⟩
    · rw [hwalk]
      exact .nil
    · have hpage := Registry.page_ascending hs.filed cursor turn.reader.limit
      rw [← Reader.read_eq] at hpage
      have hnext := consistent_reached hs turn.operations
      rw [hwalk, listed_cons, List.pairwise_append, List.pairwise_map]
      refine ⟨hpage, ih hnext _, ?_⟩
      intro p hp q hq
      obtain ⟨info, hinfo, rfl⟩ := List.mem_map.1 hp
      have hbeyond := beyond_some.1 (beyond_of_mem_listed hnext hq)
      obtain ⟨earlier, hsplit⟩ := List.getLast?_eq_some_iff.1 hlast
      rw [hsplit] at hinfo hpage
      rcases List.mem_append.1 hinfo with hearlier | hend
      · have hlt := (List.pairwise_append.1 hpage).2.2 info hearlier last (by simp)
        exact List.lt_trans hlt hbeyond
      · rw [List.mem_singleton.1 hend]
        exact hbeyond

/-- Every entry of a page is what the state of the page has committed. -/
lemma committed_of_mem_walk (hs : s.Consistent) (h : visit ∈ s.walk cursor turns) :
    ∀ info ∈ visit.page, visit.state.registry.poolInfo? info.address = some info := by
  induction turns generalizing s cursor with
  | nil => simp [walk] at h
  | cons turn turns ih =>
    intro info hinfo
    rcases s.walk_cons_cases cursor turn turns with ⟨-, hwalk⟩ | ⟨last, -, hwalk⟩
    · rw [hwalk, List.mem_singleton] at h
      rw [h] at hinfo
      simp at hinfo
    · rw [hwalk] at h
      rcases List.mem_cons.1 h with rfl | hrest
      · exact (of_mem_read hs hinfo).1
      · exact ih (consistent_reached hs turn.operations) hrest info hinfo

/-- A walk lists no other pools than those that are registered when it starts and those that join
it. -/
lemma registered_or_joins (hs : s.Consistent) (h : p ∈ listed (s.walk cursor turns)) :
    s.Registered p ∨ Joins (s.walk cursor turns) p := by
  induction turns generalizing s cursor with
  | nil => simp [walk] at h
  | cons turn turns ih =>
    by_cases hnow : s.Registered p
    · exact .inl hnow
    right
    rcases s.walk_cons_cases cursor turn turns with ⟨-, hwalk⟩ | ⟨last, -, hwalk⟩
    · rw [hwalk] at h
      simp at h
    · rw [hwalk] at h ⊢
      rw [listed_cons, List.mem_append, List.mem_map] at h
      rcases h with ⟨info, hinfo, rfl⟩ | hrest
      · obtain ⟨pool, hpool, -⟩ := Option.map_eq_some_iff.1 (of_mem_read hs hinfo).1
        exact absurd ⟨pool, hpool⟩ hnow
      · have hnext := consistent_reached hs turn.operations
        have hne : (s.reached turn.operations).walk (some last.address) turns ≠ [] := by
          intro hempty
          rw [hempty] at hrest
          simp at hrest
        obtain ⟨visit, later, hwalk, hstate, hcursor⟩ := exists_walk_eq_cons hne
        rcases ih hnext hrest with hregistered | hjoins
        · rw [hwalk, joins_cons_iff, hstate, hcursor]
          exact .inl ⟨hnow, hregistered, beyond_of_mem_listed hnext hrest⟩
        · exact hjoins.cons _

lemma Completed.ne_nil (h : Completed visits) : visits ≠ [] := by
  rintro rfl
  obtain ⟨last, hlast, -⟩ := h
  cases hlast

lemma Completed.of_cons (h : Completed (visit :: visits)) (hpage : visit.page ≠ []) :
    Completed visits := by
  obtain ⟨last, hlast, hempty⟩ := h
  cases visits with
  | nil =>
    obtain rfl : visit = last := by simpa using hlast
    exact absurd hempty hpage
  | cons next later => exact ⟨last, by simpa using hlast, hempty⟩

/-- A walk that is completed has listed what was registered beyond its start and what joined it. -/
lemma mem_listed_of_completed (hs : s.Consistent) (hlimit : ∀ turn ∈ turns, 0 < turn.reader.limit)
    (hcompleted : Completed (s.walk cursor turns))
    (h : s.Registered p ∧ Beyond cursor p ∨ Joins (s.walk cursor turns) p) :
    p ∈ listed (s.walk cursor turns) := by
  induction turns generalizing s cursor with
  | nil => exact absurd rfl hcompleted.ne_nil
  | cons turn turns ih =>
    have hnext := consistent_reached hs turn.operations
    rcases s.walk_cons_cases cursor turn turns with ⟨hempty, hwalk⟩ | ⟨last, hlast, hwalk⟩
    · rw [hwalk] at h
      rcases h with ⟨⟨pool, hpool⟩, hbeyond⟩ | hjoins
      · have hpage := Registry.mem_page_or_beyond hs.filed hpool hbeyond (hlimit turn (by simp))
        rw [← Reader.read_eq, hempty] at hpage
        simp at hpage
      · exact absurd hjoins not_joins_singleton
    · have hpage : turn.reader.read s cursor ≠ [] := by
        intro hempty
        rw [hempty] at hlast
        cases hlast
      rw [hwalk] at h hcompleted ⊢
      have hcompletes := hcompleted.of_cons hpage
      have hrest := ih hnext (fun later hlater => hlimit later (by simp [hlater])) hcompletes
      rw [listed_cons, List.mem_append]
      rcases h with ⟨hregistered, hbeyond⟩ | hjoins
      · obtain ⟨pool, hpool⟩ := hregistered
        have hread := Registry.mem_page_or_beyond hs.filed hpool hbeyond (hlimit turn (by simp))
        rw [← Reader.read_eq, hlast] at hread
        rcases hread with hfound | ⟨found, hfound, hlt⟩
        · exact .inl hfound
        · obtain rfl : last = found := Option.some.inj hfound
          have hlater : (s.reached turn.operations).Registered p :=
            Registered.reached ⟨pool, hpool⟩ hs turn.operations
          exact .inr (hrest (.inl ⟨hlater, beyond_some.2 hlt⟩))
      · right
        obtain ⟨next, later, hnextWalk, hstate, hcursor⟩ := exists_walk_eq_cons hcompletes.ne_nil
        rw [hnextWalk, joins_cons_iff, hstate, hcursor] at hjoins
        rcases hjoins with ⟨-, hregistered, hbeyond⟩ | hjoins
        · exact hrest (.inl ⟨hregistered, hbeyond⟩)
        · rw [← hnextWalk] at hjoins
          exact hrest (.inr hjoins)

/-- A walk neither skips nor repeats. Whatever its page limits and whatever happens between its
pages, it lists pools in the ascending order of their UTF-8 bytes, each as it is committed when its
page is read, and only such that are registered when it starts or join it. Once it has come to an
empty page, it has listed each of these exactly once. -/
theorem walk_lists_once (rules : Rules) (accounts : AccountBook) (capacity : Nat)
    (past : List Operation) (turns : List Turn) (hlimit : ∀ turn ∈ turns, 0 < turn.reader.limit) :
    let s := (create rules accounts capacity).reached past
    let visits := s.walk none turns
    (listed visits).Pairwise (fun p q => utf8 p < utf8 q) ∧
    (∀ visit ∈ visits, ∀ info ∈ visit.page,
      visit.state.registry.poolInfo? info.address = some info) ∧
    (∀ p ∈ listed visits, s.Registered p ∨ Joins visits p) ∧
    (Completed visits → ∀ p, s.Registered p ∨ Joins visits p → (listed visits).count p = 1) := by
  intro s visits
  have hs : s.Consistent := consistent_reached (consistent_create rules accounts capacity) past
  have hascending : (listed visits).Pairwise fun p q => utf8 p < utf8 q :=
    listed_ascending hs none turns
  refine ⟨hascending, ?_, ?_, ?_⟩
  · intro visit hvisit
    exact committed_of_mem_walk hs hvisit
  · intro p hp
    exact registered_or_joins hs hp
  · intro hcompleted p hp
    have hmem : p ∈ listed visits := by
      apply mem_listed_of_completed hs hlimit hcompleted
      apply hp.imp_left
      intro hregistered
      exact ⟨hregistered, by simp [Beyond]⟩
    have hnodup : (listed visits).Nodup := by
      apply hascending.imp
      rintro p q hlt rfl
      exact List.lt_irrefl _ hlt
    exact List.count_eq_one_of_mem hnodup hmem

namespace Sample

def opening (name : String) : Operation :=
  .call (.registerPool name ⟨name, "tweaked", [], name⟩ token 100#128 "")

/-- Pages of one pool, with registrations on both sides of the cursor after the first of them. -/
def paging : List Turn :=
  [⟨.registry 1, [opening "annex", opening "quay"]⟩, ⟨.exchange .default none 1#32, []⟩,
    ⟨.registry 1, []⟩]

end Sample

theorem walk_lists_once_sample :
    let s := (create Sample.rules (.create 0#64 0#128) 10).reached Sample.funded
    let visits := s.walk none Sample.paging
    s.Registered "pool" ∧ (listed visits).count "pool" = 1 ∧
      Joins visits "quay" ∧ (listed visits).count "quay" = 1 := by
  intro s visits
  have hlimit : ∀ turn ∈ Sample.paging, 0 < turn.reader.limit := by decide
  obtain ⟨-, -, honly, honce⟩ :=
    walk_lists_once Sample.rules (.create 0#64 0#128) 10 Sample.funded Sample.paging hlimit
  have hlast : visits.getLast?.map Visit.page = some [] := by decide +kernel
  have hcompleted : Completed visits := Option.map_eq_some_iff.1 hlast
  have hpool : s.Registered "pool" := Option.isSome_iff_exists.1 (by decide +kernel)
  have hlisted : "quay" ∈ listed visits := by decide +kernel
  have hjoins : Joins visits "quay" := by
    apply (honly "quay" hlisted).resolve_left
    have hfree : s.registry.get? "quay" = none := by decide +kernel
    rintro ⟨pool, hfound⟩
    rw [hfree] at hfound
    cases hfound
  exact ⟨hpool, honce hcompleted "pool" (.inl hpool), hjoins,
    honce hcompleted "quay" (.inr hjoins)⟩

end Settlement

end RuneSettlement
