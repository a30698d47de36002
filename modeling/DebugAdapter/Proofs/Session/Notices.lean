import DebugAdapter.Proofs.Json.Supply
import DebugAdapter.Proofs.Session.Course
import DebugAdapter.Proofs.Session.Transition

namespace DebugAdapter

open Frontend

def Effect.notices (effects : List Effect) : List Event :=
  effects.filterMap fun
    | .send (.event e) => if e.event = "stopped" ∨ e.event = "output" then some e else none
    | _ => none

namespace Session

open Effect

/-- How the front end is told what the debuggee says. -/
inductive Translates : Move → Event → Prop
  | stopped (body : Json) (reason : String) (thread : Int) :
      body.Supplies "reason" .string (· ≠ "") "pause" reason →
      body.Supplies "threadId" .int (fun n => n ≠ 0 ∧ -2 ^ 63 ≤ n ∧ n < 2 ^ 63) 1 thread →
      Translates (.report (.record (.event "stopped" body))) (.stopped reason thread)
  | printed (body : Json) (text category : String) :
      body.Supplies "output" .string (fun _ => True) "" text →
      body.Supplies "category" .string (fun _ => True) "console" category →
      Translates (.report (.record (.event "output" body))) (.output text category)

def Move.notice? : Move → Option Event
  | .report (.record (.event name body)) =>
    if name = "stopped" then some (stoppedEvent body)
    else if name = "output" then some (outputEvent body)
    else none
  | _ => none

theorem notices_picks : Picks notices :=
  picks_filterMap fun _ => rfl

section Bodies

variable {body : Json}

theorem supplies_reason {reason : String} :
    body.Supplies "reason" .string (· ≠ "") "pause" reason ↔
      (((body.field? "reason").bind Json.string?).filter (· ≠ "")).getD "pause" = reason := by
  refine Json.supplies_iff Json.string_injective fun text => ?_
  rw [Json.filter_read_iff Json.string_read, decide_eq_true_eq, and_true]

theorem supplies_thread {thread : Int} :
    body.Supplies "threadId" .int (fun n => n ≠ 0 ∧ -2 ^ 63 ≤ n ∧ n < 2 ^ 63) 1 thread ↔
      (((body.field? "threadId").bind Json.signedWord?).filter (· ≠ 0)).getD 1 = thread := by
  refine Json.supplies_iff Json.int_injective fun n => ?_
  rw [Json.filter_read_iff Json.signedWord_read, decide_eq_true_eq]

end Bodies

variable {env : Environment} {s t : Session} {move : Move} {es : List Effect}

theorem translates_iff (move : Move) (e : Event) : Translates move e ↔ move.notice? = some e := by
  constructor
  · rintro (⟨body, reason, thread, hreason, hthread⟩ | ⟨body, text, category, htext, hcategory⟩)
    · rw [← supplies_reason.mp hreason, ← supplies_thread.mp hthread]
      rfl
    · rw [← Json.supplies_text.mp htext, ← Json.supplies_text.mp hcategory]
      rfl
  · rcases move with _ | ((⟨name, body⟩ | _) | _ | _) | _ | _ | _ | _ <;>
      simp only [Move.notice?, reduceCtorEq, IsEmpty.forall_iff]
    split
    · rintro ⟨⟩
      subst name
      exact .stopped body _ _ (supplies_reason.mpr rfl) (supplies_thread.mpr rfl)
    · split
      · rintro ⟨⟩
        subst name
        exact .printed body _ _ (Json.supplies_text.mpr rfl) (Json.supplies_text.mpr rfl)
      · nofun

/-- A transition notifies the front end of what its move tells, and of nothing else. -/
theorem Transition.notices_eq (h : Transition env s move t es) :
    notices es = move.notice?.toList := by
  cases h with
  | disconnected r hr =>
    rw [notices_picks.append]
    split <;> exact pick_farewell notices_picks rfl s
  | breakpointsSet r hr | forwarded r hr =>
    rw [notices_picks.append, pick_writes notices_picks fun _ => rfl]
    rfl
  | deferred | greetingSent | launchSent => exact pick_writes notices_picks (fun _ => rfl) ..
  | ended body => exact pick_farewell notices_picks rfl s
  | ignored name body hn =>
    have hs : name ≠ "stopped" := fun h => hn (by simp [h])
    have ho : name ≠ "output" := fun h => hn (by simp [h])
    simp [Move.notice?, hs, ho, notices]
  | exited info => cases s.endAnnounced <;> cases info.code <;> rfl
  | answered index => cases s.released[index]? <;> rfl
  | shutDown => split <;> rfl
  | _ => rfl

theorem step_notices (s : Session) (env : Environment) (move : Move) :
    notices (s.step env move).2 = move.notice?.toList := by
  rw [← pick_outward notices_picks]
  exact (s.step_transition env move).notices_eq

theorem notices_course (s : Session) (course : Course) :
    notices (s.effects course) = (course.map Prod.snd).filterMap Move.notice? := by
  induction course generalizing s with
  | nil => rfl
  | cons happened course ih =>
    obtain ⟨env, move⟩ := happened
    rw [effects_cons, notices_picks.append, step_notices, ih, List.map_cons, List.filterMap_cons]
    cases move.notice? <;> rfl

end Session
end DebugAdapter
