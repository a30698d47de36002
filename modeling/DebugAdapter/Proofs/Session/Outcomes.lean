import DebugAdapter.Proofs.Session.LateReplies

namespace DebugAdapter.Session

open Frontend Correlation

def Happening.completed (h : Happening) : List (Completion Nat) :=
  ((h.session.operation? h.env h.move).map fun op => (op.apply h.session.pending).completed).getD []

def outcome (c : Completion Nat) : Nat × Response :=
  (c.key, stackTraceResponse c)

/-- The answers to stack traces that were passed on, with the numbers of these: first those that were
sent, then those that are still to be sent. -/
def outcomes (past : List Happening) (s : Session) : List (Nat × Response) :=
  past.filterMap Happening.answer? ++ s.released.map outcome

/-- Each stack trace that was passed on is pending, or there is one answer for it. -/
def Counted (past : List Happening) (s : Session) : Prop :=
  ((outcomes past s).map Prod.fst ++ s.pending.entries.map Entry.key).Perm
    ((passedOn past).map Prod.fst)

variable {past : List Happening} {s : Session} {h : Happening}

/-- What is released is what there is a new answer for; sending one changes nothing. -/
theorem step_outcomes (past : List Happening) (h : Happening) :
    (outcomes (past ++ [h]) h.next).Perm
      (outcomes past h.session ++ h.completed.map outcome) := by
  obtain ⟨s, env, move⟩ := h
  by_cases ha : ∃ index, move = .answer index
  · obtain ⟨index, rfl⟩ := ha
    have hsent := ((s.answer_takes index).map outcome).append_left
      (past.filterMap Happening.answer?)
    cases hc : s.released[index]? <;>
      simpa [outcomes, outcome, Happening.next, Happening.answer?, Happening.completed, operation?,
        step, hc] using hsent
  · have hw := s.step_worked env move fun index hi => ha ⟨index, hi⟩
    have hnone : Happening.answer? ⟨s, env, move⟩ = none := by
      cases move with
      | answer index => exact absurd ⟨index, rfl⟩ ha
      | _ => rfl
    cases hop : s.operation? env move with
    | none =>
      rw [hop] at hw
      simp [outcomes, Happening.next, Happening.completed, hnone, hop, hw.2]
    | some op =>
      rw [hop] at hw
      simp [outcomes, Happening.next, Happening.completed, hnone, hop, hw.2]

theorem outcome_grows {p : Nat × Response} (hp : p ∈ outcomes past h.session) :
    p ∈ outcomes (past ++ [h]) h.next :=
  (step_outcomes past h).mem_iff.mpr (List.mem_append_left _ hp)

/-- An operation registers what is passed on. -/
theorem added_passed {op : Operation Nat} (hop : h.session.operation? h.env h.move = some op)
    (generation : Nat) :
    (op.added generation).map Entry.key = h.passed?.toList.map Prod.fst := by
  obtain ⟨s, env, move⟩ := h
  by_cases hr : ∃ r, move = .request r
  · obtain ⟨r, rfl⟩ := hr
    rw [s.request_added env r hop]
    by_cases hd : s.defers env r = true <;> simp [Happening.passed?, hd]
  · have hpassed : Happening.passed? ⟨s, env, move⟩ = none := by
      cases move with
      | request r => exact absurd ⟨r, rfl⟩ hr
      | _ => rfl
    rw [s.operation_added env move (fun r h => hr ⟨r, h⟩) hop, hpassed]
    rfl

theorem passed_operation (hop : h.session.operation? h.env h.move = none) : h.passed? = none := by
  cases hp : h.passed? with
  | none => rfl
  | some p =>
    obtain ⟨hm, hd, _⟩ := passed_some hp
    have hc := h.session.defers_command h.env hd
    simp [operation?, hm, hd, hc] at hop

/-- The numbers of what is released and of what is pending after it are those of what was pending and
of what is passed on. -/
theorem step_numbers (hk : h.session.pending.KeysUnique) :
    (h.completed.map (·.key) ++ h.next.pending.entries.map Entry.key).Perm
      (h.session.pending.entries.map Entry.key ++ h.passed?.toList.map Prod.fst) := by
  have hcases := h.session.step_cases h.env h.move
  cases hop : h.session.operation? h.env h.move with
  | none =>
    have hsame : h.next.pending = h.session.pending := by
      rcases hcases with ⟨_, hp, _⟩ | ⟨hp, _⟩ | ⟨op, hsome, _⟩
      · exact hp
      · exact hp
      · rw [hop] at hsome
        cases hsome
    simp [Happening.completed, hop, passed_operation hop, hsame]
  | some op =>
    have hm : ∀ index, h.move ≠ .answer index := by
      rintro index hm
      rw [hm] at hop
      cases hop
    have hw := h.session.step_worked h.env h.move hm
    rw [hop] at hw
    have htakes := (op.apply_takes h.session.pending hk).map Entry.key
    rw [List.map_append, List.map_append, added_passed hop] at htakes
    have hpending : h.next.pending = (op.apply h.session.pending).table := hw.1
    simpa [Happening.completed, hop, hpending, op.completed_eq, Function.comp_def, Entry.complete]
      using htakes

/-- A move takes a stack trace out of the desk exactly if it gives it an answer. -/
theorem step_counted (hk : h.session.pending.KeysUnique) (hc : Counted past h.session) :
    Counted (past ++ [h]) h.next := by
  have hkeys : (h.completed.map outcome).map Prod.fst = h.completed.map (·.key) := by
    simp [outcome]
  have hreleased := ((step_outcomes past h).map Prod.fst).append_right
    (h.next.pending.entries.map Entry.key)
  rw [List.map_append, hkeys, List.append_assoc] at hreleased
  have hmoved := hreleased.trans ((step_numbers hk).append_left _)
  rw [Counted, passed_on_snoc, List.map_append]
  rw [← List.append_assoc] at hmoved
  exact hmoved.trans (hc.append_right _)

/-- A stack trace is answered once, so an answer that is known is the only one. -/
theorem counted_once (hr : Recorded past s) (hc : Counted past s) {p : Nat × Response}
    (hp : p ∈ outcomes past s) : (outcomes past s).filter (·.1 = p.1) = [p] :=
  filter_at_name (List.nodup_append.mp (hc.nodup_iff.mpr hr.numbers)).1 hp

end DebugAdapter.Session
