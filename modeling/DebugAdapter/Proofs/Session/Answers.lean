import DebugAdapter.Proofs.Session.Desk
import DebugAdapter.Proofs.Session.Responses

namespace DebugAdapter.Session

open Frontend Correlation

def waiting (s : Session) : List (Nat × String) :=
  (s.released.map (·.sink) ++ s.pending.entries.map (·.sink)).map (·, "stackTrace")

namespace Move

def asked : Move → List (Nat × String)
  | .request r => [(r.seq, r.command)]
  | _ => []

/-- What goes on by itself once the front end has left: timers, answers and the handshake. -/
def IsTask : Move → Prop
  | .timer .. | .handshake | .answer _ => True
  | .request _ | .report _ | .shutDown => False

end Move

def asked (course : Course) : List (Nat × String) :=
  course.flatMap fun happened => happened.2.asked

@[simp] theorem asked_append (first second : Course) :
    asked (first ++ second) = asked first ++ asked second :=
  List.flatMap_append

@[simp] theorem asked_cons (env : Environment) (move : Move) (course : Course) :
    asked ((env, move) :: course) = move.asked ++ asked course := rfl

namespace Happening

def direct (h : Happening) : List Response :=
  match h.move with
  | .request _ => responses h.effects
  | _ => []

def undeferred (h : Happening) : List (Nat × String) :=
  match h.move with
  | .request r => if h.session.defers h.env r then [] else [(r.seq, r.command)]
  | _ => []

end Happening

/-- What waits before and after an operation differs by what the operation adds. -/
theorem operation_waiting {s t : Session} {op : Operation Nat} (hk : s.pending.KeysUnique)
    (hw : s.Worked t (some op)) :
    t.waiting.Perm (s.waiting ++
      (op.added s.pending.nextGeneration).map fun e => (e.sink, "stackTrace")) := by
  obtain ⟨hpending, hreleased⟩ := hw
  have hsinks : ((op.taken s.pending).map Entry.sink ++
      (op.apply s.pending).table.entries.map Entry.sink).Perm
      (s.pending.entries.map Entry.sink ++ (op.added s.pending.nextGeneration).map Entry.sink) := by
    simpa using (op.apply_takes s.pending hk).map Entry.sink
  have hdone :
      (op.apply s.pending).completed.map (·.sink) = (op.taken s.pending).map Entry.sink := by
    simp [op.completed_eq, Function.comp_def, Entry.complete]
  have h := (hsinks.append_left (s.released.map (·.sink))).map (·, "stackTrace")
  simpa [waiting, hpending, hreleased, hdone, Function.comp_def] using h

variable {s : Session} (env : Environment)

/-- A request waits if it is deferred, and is answered at once otherwise. -/
theorem request_waiting (hk : s.pending.KeysUnique) (r : Request) :
    (s.step env (.request r)).1.waiting.Perm
      (s.waiting ++ if s.defers env r then [(r.seq, r.command)] else []) := by
  have hw := s.step_worked env (.request r) (by simp)
  by_cases hd : s.defers env r = true
  · have hc := s.defers_command env hd
    rw [operation?, if_neg (by simp [hc]), if_pos hd] at hw
    simpa [hd, hc, Operation.added] using operation_waiting hk hw
  · by_cases hc : r.command = "disconnect" ∨ r.command = "terminate"
    · rw [operation?, if_pos hc] at hw
      simpa [hd, Operation.added] using operation_waiting hk hw
    · rw [operation?, if_neg hc, if_neg hd] at hw
      simp [hd, waiting, hw.1, hw.2]

/-- Nothing else that is no answer makes a request wait or lets one go. -/
theorem other_waiting (hk : s.pending.KeysUnique) (move : Move) (hr : ∀ r, move ≠ .request r)
    (ha : ∀ index, move ≠ .answer index) : (s.step env move).1.waiting.Perm s.waiting := by
  have hw := s.step_worked env move ha
  cases hop : s.operation? env move with
  | none =>
    rw [hop] at hw
    simp [waiting, hw.1, hw.2]
  | some op =>
    have hadded := s.operation_added env move hr hop s.pending.nextGeneration
    rw [hop] at hw
    simpa [hadded] using operation_waiting hk hw

theorem answer_waiting (index : Nat) :
    ((s.released[index]?.map fun c => (c.sink, "stackTrace")).toList ++
      (s.step env (.answer index)).1.waiting).Perm s.waiting := by
  have hpending := (s.answer_desk index).1
  have h := (((s.answer_takes index).map (·.sink)).append_right
    (s.pending.entries.map (·.sink))).map (·, "stackTrace")
  cases hc : s.released[index]? <;> simpa [step, waiting, hpending, hc] using h

/-- One move: the requests that it answers and those that wait after it are those that waited before
it and the one that it brings. -/
theorem step_conserved (hk : s.pending.KeysUnique) (move : Move) :
    (answered (s.step env move).2 ++ (s.step env move).1.waiting).Perm
      (s.waiting ++ move.asked) := by
  rw [s.step_answers env move]
  cases move with
  | request r =>
    have h := request_waiting env hk r
    by_cases hd : s.defers env r = true
    · simpa [answers, hd, Move.asked] using h
    · have hmoved := (h.append_left [(r.seq, r.command)]).trans List.perm_append_comm
      simpa [answers, hd, Move.asked] using hmoved
  | answer index => simpa [answers, Move.asked] using answer_waiting env index
  | _ => simpa [answers, Move.asked] using other_waiting env hk _ (by simp) (by simp)

/-- Throughout a course every request that came is answered or waits. -/
theorem course_conserved (hk : s.pending.KeysUnique) (course : Course) :
    (answered (s.effects course) ++ (s.after course).waiting).Perm (s.waiting ++ asked course) := by
  induction course generalizing s with
  | nil => simp [answered_picks.nil, asked]
  | cons happened course ih =>
    obtain ⟨env, move⟩ := happened
    have hfirst := (step_conserved env hk move).append_right (asked course)
    have hrest := (ih (s.step_keys env hk move)).append_left (answered (s.step env move).2)
    have h := hrest.trans (by simpa using hfirst)
    simpa [answered_picks.append] using h

theorem task_pending {move : Move} (ht : move.IsTask) (he : s.pending.entries = []) :
    (s.step env move).1.pending.entries = [] := by
  cases move with
  | timer key generation => simp [step, fireTimer, Table.fire, Table.find?, he]
  | handshake => rw [(s.step_worked env .handshake (by simp)).1, he]
  | answer index => rw [step, (s.answer_desk index).1, he]
  | request r => exact ht.elim
  | report report => exact ht.elim
  | shutDown => exact ht.elim

theorem tasks_pending {tail : Course} (ht : ∀ happened ∈ tail, happened.2.IsTask)
    (he : s.pending.entries = []) : (s.after tail).pending.entries = [] := by
  induction tail generalizing s with
  | nil => exact he
  | cons happened tail ih =>
    have hfirst := task_pending happened.1 (ht happened List.mem_cons_self) he
    exact ih (fun other hm => ht other (List.mem_cons_of_mem _ hm)) hfirst

theorem tasks_asked {tail : Course} (ht : ∀ happened ∈ tail, happened.2.IsTask) :
    asked tail = [] := by
  apply List.flatMap_eq_nil_iff.mpr
  intro happened hm
  have htask := ht happened hm
  cases hmove : happened.2 with
  | request r => simp [hmove, Move.IsTask] at htask
  | _ => rfl

theorem answers_released (s : Session) :
    (s.after (List.replicate s.released.length (env, .answer 0))).released = [] := by
  suffices h : ∀ n (s : Session),
      (s.after (List.replicate n (env, .answer 0))).released = s.released.drop n by
    simpa using h s.released.length s
  intro n
  induction n with
  | zero => simp
  | succ n ih =>
    intro s
    rw [List.replicate_succ, after_cons, ih, step, (s.answer_desk 0).2]
    cases s.released <;> simp

theorem waiting_of_empty (hpending : s.pending.entries = []) (hreleased : s.released = []) :
    s.waiting = [] := by
  simp [waiting, hpending, hreleased]

/-- What was answered while requests were handled are those that were not deferred, in order. -/
theorem direct_history (s : Session) (course : Course) :
    ((s.history course).flatMap Happening.direct).map (fun p => (p.requestSeq, p.command)) =
      (s.history course).flatMap Happening.undeferred := by
  rw [List.map_flatMap]
  congr 1
  funext h
  obtain ⟨t, env, move⟩ := h
  cases move with
  | request r => exact t.step_answers env (.request r)
  | _ => rfl

theorem direct_sublist (s : Session) (course : Course) :
    ((s.history course).flatMap Happening.direct).Sublist (responses (s.effects course)) := by
  rw [effects_history]
  induction s.history course with
  | nil => simp
  | cons h rest ih =>
    have hfirst : h.direct.Sublist (responses h.effects) := by
      unfold Happening.direct
      split
      · exact List.Sublist.refl _
      · exact List.nil_sublist _
    simpa [responses_picks.append] using hfirst.append ih

/-- At any time the requests that were answered and those that wait are those that were handled.
After the shutdown nothing is pending, and once the answers have run, which they can, nothing waits
and each request was answered once. Requests that were not deferred are answered in their order. -/
theorem every_request_answered_once (config : Config) (roots : List String) (course : Course) :
    let s := start config roots
    (answered (s.effects course) ++ (s.after course).waiting).Perm (asked course) ∧
    (∀ env tail, (∀ happened ∈ tail, happened.2.IsTask) →
      let all := course ++ (env, .shutDown) :: tail
      (s.after all).pending.entries = [] ∧
      ((s.after all).released = [] →
        (s.after all).waiting = [] ∧ (answered (s.effects all)).Perm (asked course))) ∧
    (∀ env, ∃ tail, (∀ happened ∈ tail, happened.2.IsTask) ∧
      (s.after (course ++ (env, .shutDown) :: tail)).released = []) ∧
    ((s.history course).flatMap Happening.direct).Sublist (responses (s.effects course)) ∧
    ((s.history course).flatMap Happening.direct).map (fun p => (p.requestSeq, p.command)) =
      (s.history course).flatMap Happening.undeferred := by
  intro s
  have hk : s.pending.KeysUnique := Table.empty_keys
  refine ⟨?_, ?_, ?_, s.direct_sublist course, s.direct_history course⟩
  · exact course_conserved hk course
  · intro env tail ht all
    have hpending : (s.after all).pending.entries = [] := by
      rw [after_append, after_cons]
      exact tasks_pending ht rfl
    refine ⟨hpending, fun hreleased => ?_⟩
    have hwaiting := waiting_of_empty hpending hreleased
    have hall : asked all = asked course := by simp [all, Move.asked, tasks_asked ht]
    refine ⟨hwaiting, ?_⟩
    have h := course_conserved hk all
    rw [hwaiting, hall, waiting_of_empty rfl rfl] at h
    simpa using h
  · intro env
    refine ⟨List.replicate ((s.after course).step env .shutDown).1.released.length
      (env, .answer 0), ?_, ?_⟩
    · intro happened hm
      rw [List.eq_of_mem_replicate hm]
      trivial
    · rw [after_append, after_cons]
      exact answers_released env _

/-- A stack trace that is still pending at the shutdown is answered after it. -/
theorem tracing_answered_once :
    let s := start {} ["/w"]
    let tail : Course := [(willing 700, .timer 3 0), (willing 700, .answer 0)]
    let all := tracing ++ (willing 600, .shutDown) :: tail
    (∀ happened ∈ tail, happened.2.IsTask) ∧ (s.after all).released = [] ∧
      (answered (s.effects all)).Perm [(1, "launch"), (2, "stackTrace")] := by
  intro s tail all
  have ht : ∀ happened ∈ tail, happened.2.IsTask := by simp [tail, Move.IsTask]
  have hreleased : (s.after all).released = [] := rfl
  have h := (every_request_answered_once {} ["/w"] tracing).2.1 (willing 600) tail ht
  exact ⟨ht, hreleased, (h.2 hreleased).2⟩

end DebugAdapter.Session
