import DebugAdapter.Proofs.Session.Announcement
import DebugAdapter.Proofs.Session.Notices
import Mathlib.Data.List.Forall2

namespace DebugAdapter

open Frontend

def Effect.stops (effects : List Effect) : List Event :=
  (Effect.notices effects).filter (·.event = "stopped")

/-- The front end is told of no stop once it was told of the end. -/
def QuietAtEnd (ms : List Message) : Prop :=
  ∀ before after, ms = before ++ .event .terminated :: after →
    ∀ e, .event e ∈ after → e.event ≠ "stopped"

namespace Session

open Effect

def Move.stops : Move → Bool
  | .report (.record (.event name _)) => name = "stopped"
  | _ => false

/-- The debuggee does not say that it has stopped once something has ended the session. -/
def StillAtEnd (course : Course) : Prop :=
  ∀ before happened after, course = before ++ happened :: after →
    before.any (·.2.ends) = true → happened.2.stops = false

variable {env : Environment} {s : Session} {move : Move} {es fs : List Effect}

section Stops

theorem mem_messages {m : Message} : m ∈ messages es ↔ Effect.send m ∈ es := by
  unfold messages
  rw [List.mem_filterMap]
  constructor
  · rintro ⟨e, he, hm⟩
    cases e <;> cases hm
    exact he
  · intro hm
    exact ⟨_, hm, rfl⟩

theorem mem_stops {e : Event} : e ∈ stops es ↔ .event e ∈ messages es ∧ e.event = "stopped" := by
  rw [stops, List.mem_filter, mem_messages, decide_eq_true_eq]
  apply and_congr_left
  intro hname
  unfold notices
  rw [List.mem_filterMap]
  constructor
  · rintro ⟨effect, hin, he⟩
    split at he
    · split at he
      · cases he
        exact hin
      · cases he
    · cases he
  · intro hin
    exact ⟨_, hin, if_pos (Or.inl hname)⟩

theorem mem_announcements {e : Event} (he : e ∈ announcements es) : .event e ∈ messages es := by
  rw [mem_messages]
  obtain ⟨effect, hin, hsome⟩ := List.mem_filterMap.mp he
  split at hsome
  · split at hsome
    · cases hsome
      exact hin
    · cases hsome
  · cases hsome

/-- The end is announced among what is told where a move brings it. -/
theorem terminated_announced (move : Move) : Event.terminated ∈ move.announcement := by
  unfold Move.announcement
  split
  · exact List.mem_append_right _ (List.mem_singleton_self _)
  · exact List.mem_singleton_self _

theorem stops_iff :
    move.stops = true ↔ ∃ body, move = .report (.record (.event "stopped" body)) := by
  constructor
  · intro hm
    unfold Move.stops at hm
    split at hm
    · rename_i name body
      obtain rfl : name = "stopped" := of_decide_eq_true hm
      exact ⟨body, rfl⟩
    · cases hm
  · rintro ⟨body, rfl⟩
    rfl

theorem stops_tells (hm : move.stops = true) : move.notice?.isSome := by
  obtain ⟨body, rfl⟩ := stops_iff.mp hm
  rfl

theorem notice_stopped {e : Event} (he : move.notice? = some e) :
    e.event = "stopped" ↔ move.stops = true := by
  constructor
  · intro hname
    cases (translates_iff move e).mpr he with
    | stopped body reason thread => rfl
    | printed body text category => simp [Event.output] at hname
  · intro hm
    obtain ⟨body, rfl⟩ := stops_iff.mp hm
    cases he
    rfl

/-- What ends a session is no stop. -/
theorem ends_not_stops (hm : move.ends = true) : move.stops = false := by
  by_contra hstops
  obtain ⟨body, rfl⟩ := stops_iff.mp (by simpa using hstops)
  simp [Move.ends] at hm

end Stops

/-- What is told of the stops among some moves, one for one. -/
theorem stops_each (moves : List Move) :
    List.Forall₂ Translates (moves.filter Move.stops)
      ((moves.filterMap Move.notice?).filter (·.event = "stopped")) := by
  induction moves with
  | nil => exact .nil
  | cons move moves ih =>
    cases hm : move.stops with
    | true =>
      obtain ⟨e, he⟩ := Option.isSome_iff_exists.mp (stops_tells hm)
      have hname : e.event = "stopped" := (notice_stopped he).mpr hm
      rw [List.filter_cons_of_pos hm, List.filterMap_cons_some he, List.filter_cons]
      simp only [hname, decide_true, if_true]
      exact .cons ((translates_iff move e).mpr he) ih
    | false =>
      rw [List.filter_cons_of_neg (by simp [hm])]
      cases he : move.notice? with
      | none => rwa [List.filterMap_cons_none he]
      | some e =>
        have hname : e.event ≠ "stopped" := by
          intro hname
          cases hm.symm.trans ((notice_stopped he).mp hname)
        rwa [List.filterMap_cons_some he, List.filter_cons_of_neg (by simp [hname])]

/-- Wherever a session stands, it tells of each stop that it handles. -/
theorem stops_course (s : Session) (course : Course) :
    List.Forall₂ Translates ((course.map Prod.snd).filter Move.stops)
      (stops (s.effects course)) := by
  rw [stops, notices_course]
  exact stops_each _

theorem stops_nil_iff (s : Session) (course : Course) :
    stops (s.effects course) = [] ↔ ∀ happened ∈ course, happened.2.stops = false := by
  have hlength := (s.stops_course course).length_eq
  rw [← List.length_eq_zero_iff, ← hlength, List.length_eq_zero_iff, List.filter_eq_nil_iff,
    List.forall_mem_map]
  simp only [Bool.not_eq_true]

theorem quiet_append {first second : List Message} (hn : .event .terminated ∉ first) :
    QuietAtEnd (first ++ second) ↔ QuietAtEnd second := by
  constructor
  · intro hq before after hs
    apply hq (first ++ before) after
    rw [hs, List.append_assoc]
  · intro hq before after hs
    rcases List.append_eq_append_iff.mp hs with ⟨middle, hbefore, hsecond⟩ | ⟨middle, hfirst, hrest⟩
    · exact hq middle after hsecond
    · cases middle with
      | nil => exact hq [] after hrest.symm
      | cons m middle =>
        obtain rfl := (List.cons.inj hrest).1
        exact absurd (hfirst ▸ List.mem_append_right _ List.mem_cons_self) hn

/-- Once the end was told, what comes after it tells of no stop. -/
theorem quiet_after {first second : List Message} (ht : .event .terminated ∈ first)
    (hn : ∀ e, .event e ∈ first → e.event ≠ "stopped") :
    QuietAtEnd (first ++ second) ↔ ∀ e, .event e ∈ second → e.event ≠ "stopped" := by
  constructor
  · intro hq e he
    obtain ⟨before, after, hfirst⟩ := List.mem_iff_append.mp ht
    apply hq before (after ++ second) _ e (List.mem_append_right _ he)
    rw [hfirst, List.append_assoc]
    rfl
  · intro hq before after hs e he
    have hin : .event e ∈ first ++ second := by
      rw [hs]
      exact List.mem_append_right _ (List.mem_cons_of_mem _ he)
    rcases List.mem_append.mp hin with hfirst | hsecond
    · exact hn e hfirst
    · exact hq e hsecond

theorem still_cons {course : Course} : StillAtEnd ((env, move) :: course) ↔
    if move.ends then ∀ happened ∈ course, happened.2.stops = false else StillAtEnd course := by
  cases hm : move.ends with
  | true =>
    rw [if_pos rfl]
    constructor
    · intro hstill happened hin
      obtain ⟨before, after, rfl⟩ := List.mem_iff_append.mp hin
      exact hstill ((env, move) :: before) happened after rfl (by simp [hm])
    · intro hnone before happened after hs hended
      cases before with
      | nil => cases hended
      | cons first before =>
        rw [List.cons_append, List.cons.injEq] at hs
        exact hnone happened (hs.2 ▸ List.mem_append_right _ List.mem_cons_self)
  | false =>
    rw [if_neg (by simp)]
    constructor
    · intro hstill before happened after hs hended
      apply hstill ((env, move) :: before) happened after
      · rw [hs]
        rfl
      · simp [hended]
    · intro hstill before happened after hs hended
      cases before with
      | nil => cases hended
      | cons first before =>
        rw [List.cons_append, List.cons.injEq] at hs
        refine hstill before happened after hs.2 ?_
        simpa [← hs.1, hm] using hended

/-- Nothing follows the end exactly if the debuggee is still from there on. -/
theorem quiet_iff_still (hs : s.endAnnounced = false) (course : Course) :
    QuietAtEnd (messages (s.effects course)) ↔ StillAtEnd course := by
  induction course generalizing s with
  | nil =>
    apply iff_of_true
    · intro before after hms
      simp [messages] at hms
    · intro before happened after hcourse
      simp at hcourse
  | cons happened course ih =>
    obtain ⟨env, move⟩ := happened
    have h := s.step_announces env move
    rw [effects_cons, messages_picks.append, still_cons]
    cases hm : move.ends with
    | true =>
      have htold : announcements (s.step env move).2 = move.announcement := by
        simp [h.told, hm, hs]
      have hended : .event .terminated ∈ messages (s.step env move).2 :=
        mem_announcements (htold ▸ terminated_announced move)
      have hquiet : ∀ e, .event e ∈ messages (s.step env move).2 → e.event ≠ "stopped" := by
        intro e he hname
        have hstop : e ∈ stops (s.effects [(env, move)]) := by
          rw [effects_cons, effects_nil, List.append_nil]
          exact mem_stops.mpr ⟨he, hname⟩
        rw [(s.stops_nil_iff [(env, move)]).mpr (by simp [ends_not_stops hm])] at hstop
        cases hstop
      rw [quiet_after hended hquiet, if_pos rfl, ← stops_nil_iff, List.eq_nil_iff_forall_not_mem]
      apply forall_congr'
      intro e
      rw [mem_stops, not_and]
    | false =>
      have hnext : (s.step env move).1.endAnnounced = false := by simp [h.latched, hm, hs]
      have hsilent : .event .terminated ∉ messages (s.step env move).2 := by
        intro hin
        have htold : Event.terminated ∈ announcements (s.step env move).2 :=
          List.mem_filterMap.mpr ⟨_, mem_messages.mp hin, rfl⟩
        simp [h.told, hm] at htold
      rw [quiet_append hsilent, ih hnext]
      simp

/-- The front end is told of no stop after the end exactly if the debuggee reports none that is
handled after what ended the session. Each that is handled then is told, in their order and one for
one. -/
theorem quiet_at_end_iff_still (config : Config) (roots : List String) (course : Course) :
    let s := start config roots
    (QuietAtEnd (messages (s.effects course)) ↔ StillAtEnd course) ∧
    ∀ before after, course = before ++ after → before.any (·.2.ends) = true →
      .event .terminated ∈ messages (s.effects before) ∧
      List.Forall₂ Translates ((after.map Prod.snd).filter Move.stops)
        (stops ((s.after before).effects after)) := by
  intro s
  refine ⟨quiet_iff_still rfl course, ?_⟩
  intro before after _ hended
  refine ⟨?_, stops_course _ after⟩
  have htold : announcements (s.effects before) = announcementOf before :=
    announcements_course rfl before
  apply mem_announcements
  rw [htold, announcementOf]
  cases hf : before.find? (·.2.ends) with
  | none =>
    rw [List.find?_eq_none] at hf
    obtain ⟨happened, hin, hmove⟩ := List.any_eq_true.mp hended
    exact absurd hmove (hf happened hin)
  | some happened => exact terminated_announced happened.2

def goodbye : Move :=
  .request { seq := 3, command := "disconnect" }

def breakpointHit : Move :=
  .report (.record (.event "stopped"
    (.record [("reason", .string "breakpoint"), ("threadId", .int 1)])))

/-- The debuggee stops, and the front end disconnects. -/
theorem quiet_after_disconnect :
    let course := tracing ++ [(willing 700, breakpointHit), (willing 700, goodbye)]
    StillAtEnd course ∧ QuietAtEnd (messages ((start {} ["/w"]).effects course)) := by
  intro course
  have hstill : StillAtEnd course := by
    simp [course, tracing, still_cons, Move.ends, Move.cutsOff, traceRequest, goodbye,
      breakpointHit]
  exact ⟨hstill, (quiet_at_end_iff_still {} ["/w"] course).1.mpr hstill⟩

/-- The front end disconnects while a stop of the debuggee is still queued. -/
theorem stopped_after_disconnect :
    let course := tracing.take 4 ++ [(willing 700, goodbye), (willing 700, breakpointHit)]
    let ms := messages ((start {} ["/w"]).effects course)
    ms.drop 2 = [.event .terminated, .event (.stopped "breakpoint" 1)] ∧ ¬ QuietAtEnd ms := by
  intro course ms
  have hms : ms.drop 2 = [.event .terminated, .event (.stopped "breakpoint" 1)] := rfl
  refine ⟨hms, ?_⟩
  intro hquiet
  have hsplit : ms = ms.take 2 ++ .event .terminated :: [.event (.stopped "breakpoint" 1)] := by
    rw [← hms, List.take_append_drop]
  exact hquiet _ _ hsplit _ List.mem_cons_self rfl

end Session
end DebugAdapter
