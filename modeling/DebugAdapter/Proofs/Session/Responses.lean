import DebugAdapter.Proofs.Session.Transition

namespace DebugAdapter.Session

open Frontend Effect

def responses (effects : List Effect) : List Response :=
  effects.filterMap fun
    | .send (.response r) => some r
    | _ => none

def answered (effects : List Effect) : List (Nat × String) :=
  (responses effects).map fun p => (p.requestSeq, p.command)

theorem responses_picks : Picks responses :=
  picks_filterMap fun _ => rfl

theorem answered_picks : Picks answered where
  nil := rfl
  append es fs := by rw [answered, responses_picks.append, List.map_append]; rfl
  log _ := rfl

variable {env : Environment} {s t : Session} {move : Move} {es : List Effect}

/-- What a move answers: a request unless that is deferred, or a stack trace that was released. -/
def answers (env : Environment) (s : Session) : Move → List (Nat × String)
  | .request r => if s.defers env r then [] else [(r.seq, r.command)]
  | .answer index => (s.released[index]?.map fun c => (c.sink, "stackTrace")).toList
  | _ => []

theorem answers_undeferred {r : Request} (hc : r.command ≠ "stackTrace") :
    s.answers env (.request r) = [(r.seq, r.command)] := by
  simp [answers, defers, hc]

/-- A transition answers its own request unless that is deferred, and what was released and is now
sent. -/
theorem Transition.answers_eq (h : Transition env s move t es) :
    Session.answered es = s.answers env move := by
  have hwrites := pick_writes answered_picks (fun _ => rfl) env s
  cases h with
  | greeted r hr | refused r e hr | notStarted r program spec failure hr
  | started r program spec hr | threadsNamed r hr =>
    rw [answers_undeferred (by simp [hr])]
    rfl
  | disconnected r hr =>
    rw [answers_undeferred (by rcases hr with hr | hr <;> simp [hr]), answered_picks.append]
    have hfarewell := pick_farewell answered_picks rfl s
    split <;> exact congrArg ((r.seq, r.command) :: ·) hfarewell
  | breakpointsSet r hr =>
    rw [answers_undeferred (by simp [hr]), answered_picks.append, hwrites]
    rfl
  | forwarded r hr =>
    rw [answers_undeferred (by rintro heq; simp [heq, plainCommands] at hr),
      answered_picks.append, hwrites]
    rfl
  | unasked r hr hd =>
    rw [answers, if_neg (by simp [hd])]
    rfl
  | deferred r hd => rw [answers, if_pos hd, hwrites]
  | notUnderstood r hr =>
    rw [answers_undeferred (by rintro heq; simp [heq] at hr)]
    rfl
  | ended body => exact pick_farewell answered_picks rfl s
  | exited info => cases s.endAnnounced <;> cases info.code <;> rfl
  | greetingSent | launchSent => exact hwrites _ _
  | answered index => cases hc : s.released[index]? <;> simp [answers, hc] <;> rfl
  | shutDown => split <;> rfl
  | _ => rfl

theorem step_answers (env : Environment) (s : Session) (move : Move) :
    answered (s.step env move).2 = s.answers env move := by
  rw [← pick_outward answered_picks, (s.step_transition env move).answers_eq]

end DebugAdapter.Session
