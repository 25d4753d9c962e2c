import RuneSettlement.Proofs.Sessions
import RuneSettlement.Proofs.Slots

/-!
# What a session remembers

The log of an exchange holds the last transactions that the events of a session have resolved
(`Session.remembers_after`), and a transaction that was pending and is so no more is among all those
that have been resolved since (`Session.exists_ending`).
-/

namespace RuneSettlement.Session

open ResolutionLog (Entry)

abbrev settlement (s : Session) : Settlement := s.exchange.settlement

/-- The transaction that an event resolves, and how. -/
def Event.resolution? (s : Session) (event : Event) : Option Entry :=
  (event.call? s).bind fun call => Settlement.Operation.resolution? s.settlement (.call call)

/-- The resolutions of a session, the first one first. -/
def resolutions (s : Session) : List Event → List Entry
  | [] => []
  | event :: events => (event.resolution? s).toList ++ (s.step event).resolutions events

lemma resolutions_append (s : Session) (events later : List Event) :
    s.resolutions (events ++ later) =
      s.resolutions events ++ (s.after events).resolutions later := by
  induction events generalizing s with
  | nil => rfl
  | cons event events ih =>
    rw [List.cons_append, resolutions, ih, resolutions, List.append_assoc]
    rfl

lemma resolutions_concat (s : Session) (events : List Event) (event : Event) :
    s.resolutions (events ++ [event]) =
      s.resolutions events ++ (event.resolution? (s.after events)).toList := by
  rw [resolutions_append, resolutions, resolutions, List.append_nil]

/-- An event leaves the settlement state as it is, or makes a move of it. -/
lemma moves_step {s : Session} (hs : s.Sound) (event : Event) :
    (event.call? s = none ∧ (s.step event).settlement = s.settlement) ∨
      ∃ call, event.call? s = some call ∧
        s.settlement.Moves call (s.settlement.perform call).1 (s.step event).settlement := by
  have hfollows : (s.step event).settlement = s.settlement.after (event.call? s).toList :=
    (follows_step hs event).settlement
  cases hcall : event.call? s with
  | none =>
    rw [hcall] at hfollows
    exact .inl ⟨rfl, hfollows⟩
  | some call =>
    rw [hcall] at hfollows
    refine .inr ⟨call, rfl, ?_⟩
    rw [hfollows]
    exact s.settlement.moves_perform call

/-- A session keeps what it remembers, and adds what an event resolves. -/
lemma remembers_step {s : Session} {room : Nat} {history : List Entry} (hs : s.Sound)
    (hroom : 0 < room) (h : s.settlement.Remembers room history) (event : Event) :
    (s.step event).settlement.Remembers room (history ++ (event.resolution? s).toList) := by
  have hfollows : (s.step event).settlement = s.settlement.after (event.call? s).toList :=
    (follows_step hs event).settlement
  rw [hfollows, Event.resolution?]
  cases event.call? s with
  | none =>
    rw [Option.bind_none, Option.toList_none, Option.toList_none, List.append_nil]
    exact h
  | some call => exact h.operate hroom (.call call)

/-- The number of outcomes that the log of an exchange has room for. -/
def room (config : Config) : Nat := max 1 config.resolutionLogCapacity.toNat

lemma room_pos (config : Config) : 0 < room config :=
  Nat.lt_of_lt_of_le Nat.one_pos (Nat.le_max_left 1 _)

lemma remembers_after (config : Config) (events : List Event) :
    ((start config).after events).settlement.Remembers (room config)
      ((start config).resolutions events) := by
  induction events using List.reverseRecOn with
  | nil => exact Settlement.remembers_create config.rules config.accountBook _
  | append_singleton events event ih =>
    rw [after_concat, resolutions_concat]
    exact remembers_step (sound_after config events) (room_pos config) ih event

section Ending

variable {config : Config} {past events : List Event} {p : Address} {slot : PendingTransaction}

lemma addressForKey_after {s : Session} (hs : s.Sound) {key : String} {address : Address}
    (hkey : s.settlement.registry.addressForKey key = .ok address) (events : List Event) :
    (s.after events).settlement.registry.addressForKey key = .ok address := by
  induction events generalizing s with
  | nil => exact hkey
  | cons event events ih =>
    apply ih (hs.step event)
    rcases moves_step hs event with ⟨-, hsame⟩ | ⟨call, -, hmove⟩
    · rw [hsame]
      exact hkey
    · exact hmove.addressForKey hkey

/-- A transaction that has left its slot was resolved by an event since it was there. -/
lemma exists_ending (hslot : ((start config).after past).settlement.pendingOn? p = some slot)
    (hleft : ((start config).after (past ++ events)).settlement.pendingOn? p ≠ some slot) :
    ∃ before ending later resolution, events = before ++ ending :: later ∧
      ending.resolution? ((start config).after (past ++ before)) =
        some ((p, slot.txid), resolution) ∧
      (resolution = .finalized →
        (((start config).after (past ++ before)).step ending).settlement.registry.get? p =
          some slot.staged) := by
  induction events using List.reverseRecOn with
  | nil =>
    rw [List.append_nil] at hleft
    exact absurd hslot hleft
  | append_singleton events event ih =>
    by_cases hheld : ((start config).after (past ++ events)).settlement.pendingOn? p = some slot
    · refine ⟨events, event, [], ?_⟩
      rw [← List.append_assoc, after_concat] at hleft
      have hconsistent := (remembers_after config (past ++ events)).consistent
      rcases moves_step (sound_after config (past ++ events)) event with
        ⟨-, hsame⟩ | ⟨call, hcall, hmove⟩
      · rw [hsame] at hleft
        exact absurd hheld hleft
      · obtain ⟨resolution, hresolves, hcommits⟩ :=
          hmove.exists_resolution hconsistent hheld hleft
        refine ⟨resolution, rfl, ?_, hcommits⟩
        rw [Event.resolution?, hcall, Option.bind_some]
        exact hresolves
    · obtain ⟨before, ending, later, resolution, rfl, hresolves⟩ := ih hheld
      refine ⟨before, ending, later ++ [event], resolution, ?_, hresolves⟩
      rw [List.append_assoc, List.cons_append]

end Ending

end RuneSettlement.Session
