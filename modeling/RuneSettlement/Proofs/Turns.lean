import RuneSettlement.Proofs.Sessions

/-!
# The calls of a session

Every event of a session belongs to one call, and only the events of a call move it on. So where a
call stands, one of its own events has brought it (`Session.exists_last_turn`).
-/

namespace RuneSettlement.Session

/-- The number of the call that an event belongs to. -/
def Event.turn (s : Session) : Event → Nat
  | begin _ _ => s.calls.length
  | resume k _ _ => k

variable {s : Session} {event : Event} {k : Nat} {now : Timestamp} {original : Request}
  {stage : Stage}

lemma step_resume (now : Timestamp) (replies : (q : Question) → Reply q)
    (h : s.calls[k]? = some (original, stage)) :
    s.step (.resume k now replies) =
      ⟨(stage.advance now replies s.exchange).2,
        s.calls.set k (original, (stage.advance now replies s.exchange).1)⟩ := by
  simp only [step, h]

lemma calls_resume (now : Timestamp) (replies : (q : Question) → Reply q)
    (h : s.calls[k]? = some (original, stage)) :
    (s.step (.resume k now replies)).calls[k]? =
      some (original, (stage.advance now replies s.exchange).1) := by
  obtain ⟨hlt, -⟩ := List.getElem?_eq_some_iff.1 h
  rw [step_resume now replies h, List.getElem?_set_self hlt]

lemma calls_step_of_ne (h : event.turn s ≠ k) : (s.step event).calls[k]? = s.calls[k]? := by
  cases event with
  | begin request now =>
    change (s.calls ++ [_])[k]? = _
    rcases Nat.lt_or_ge k s.calls.length with hlt | hge
    · exact List.getElem?_append_left hlt
    · have hlt : s.calls.length < k := Nat.lt_of_le_of_ne hge h
      rw [List.getElem?_eq_none hge, List.getElem?_eq_none]
      rw [List.length_append, List.length_singleton]
      exact hlt
  | resume j now replies =>
    have hne : j ≠ k := h
    cases hcall : s.calls[j]? with
    | none => simp only [step, hcall]
    | some call =>
      rw [step_resume now replies hcall]
      exact List.getElem?_set_ne hne

lemma calls_begin (s : Session) (request : Request) (now : Timestamp) :
    (s.step (.begin request now)).calls[s.calls.length]? =
      some (request, (s.exchange.begin request now).1) := List.getElem?_concat_length

/-- A call keeps its request. -/
lemma exists_stage_after {original : Request} {stage : Stage} (events : List Event)
    (h : s.calls[k]? = some (original, stage)) :
    ∃ later, (s.after events).calls[k]? = some (original, later) := by
  induction events using List.reverseRecOn with
  | nil => exact ⟨stage, h⟩
  | append_singleton events event ih =>
    obtain ⟨later, hlater⟩ := ih
    rw [after_concat]
    by_cases hturn : event.turn (s.after events) = k
    · cases event with
      | begin request now =>
        obtain ⟨hlt, -⟩ := List.getElem?_eq_some_iff.1 hlater
        exact absurd hturn (Nat.ne_of_gt hlt)
      | resume j now replies =>
        obtain rfl : j = k := hturn
        exact ⟨_, calls_resume now replies hlater⟩
    · exact ⟨later, (calls_step_of_ne hturn).trans hlater⟩

/-- Where a call stands, it was brought by one of its own events. -/
lemma exists_last_turn {config : Config} {events : List Event} {call : Request × Stage}
    (h : ((start config).after events).calls[k]? = some call) :
    ∃ earlier event later, events = earlier ++ event :: later ∧
      event.turn ((start config).after earlier) = k ∧
      (((start config).after earlier).step event).calls[k]? = some call := by
  induction events using List.reverseRecOn with
  | nil => cases h
  | append_singleton events event ih =>
    rw [after_concat] at h
    by_cases hturn : event.turn ((start config).after events) = k
    · exact ⟨events, event, [], rfl, hturn, h⟩
    · rw [calls_step_of_ne hturn] at h
      obtain ⟨earlier, last, later, rfl, hlast, hcall⟩ := ih h
      refine ⟨earlier, last, later ++ [event], ?_, hlast, hcall⟩
      rw [List.append_assoc, List.cons_append]

/-- A call that stands beyond what can be without staging was brought there by an event of its own
that resumed it. -/
lemma exists_resume {config : Config} {events : List Event} {original : Request} {stage : Stage}
    (h : ((start config).after events).calls[k]? = some (original, stage))
    (hbeyond : ¬stage.Opens original) :
    ∃ earlier now replies later before, events = earlier ++ .resume k now replies :: later ∧
      ((start config).after earlier).calls[k]? = some (original, before) ∧
      (before.advance now replies ((start config).after earlier).exchange).1 = stage := by
  obtain ⟨earlier, event, later, rfl, hturn, hcall⟩ := exists_last_turn h
  cases event with
  | begin request now =>
    obtain rfl : ((start config).after earlier).calls.length = k := hturn
    rw [calls_begin] at hcall
    cases hcall
    exact absurd (Exchange.opens_begin _ _ now) hbeyond
  | resume j now replies =>
    obtain rfl : j = k := hturn
    cases hbefore : ((start config).after earlier).calls[j]? with
    | none =>
      simp only [step, hbefore] at hcall
      cases hcall
    | some call =>
      rw [calls_resume now replies hbefore] at hcall
      cases hcall
      exact ⟨earlier, now, replies, later, call.2, rfl, hbefore, rfl⟩

end RuneSettlement.Session
