import DebugAdapter.Proofs.Server.Inertness
import DebugAdapter.Proofs.Session.Answers

namespace DebugAdapter.Server

open Frontend Correlation Effect

/-- What can happen to a server: it gets something to handle, a timer of its session fires, the
handshake goes on, a released stack trace is answered, or the wait for the exit may be over. -/
inductive Move where
  | input (input : Input)
  | timer (key generation : Nat)
  | handshake
  | answer (index : Nat)
  | expire

abbrev Course := List (Environment × Move)

def start (config : Config) (roots : List String) : Server :=
  { session := .start config roots }

def turn (env : Environment) (s : Server) (move : Session.Move) : Outcome :=
  let (session, effects) := s.session.step env move
  ({ s with session }, effects)

def step (env : Environment) (s : Server) : Move → Outcome
  | .input input => s.handle env input
  | .timer key generation => s.turn env (.timer key generation)
  | .handshake => s.turn env .handshake
  | .answer index => s.turn env (.answer index)
  | .expire => (s.expire env.now, [])

def run (s : Server) : Course → Outcome
  | [] => (s, [])
  | (env, move) :: course =>
    let (s, effects) := s.step env move
    let (s, more) := s.run course
    (s, effects ++ more)

def after (s : Server) (course : Course) : Server :=
  (s.run course).1

def effects (s : Server) (course : Course) : List Effect :=
  (s.run course).2

namespace Input

def endsStream : Input → Bool
  | .broken | .ended _ => true
  | .request _ | .malformed | .report _ => false

def isExit : Input → Bool
  | .report (.exited _) => true
  | _ => false

end Input

/-- True for what is not discarded once the front end has left. -/
def Move.counts : Move → Bool
  | .input got => got.isExit
  | .timer .. | .handshake | .answer _ | .expire => true

/-- The wait for the exit that lasts to the deadline is over. -/
def Over (deadline : Nat) : Environment × Move → Prop
  | (_, .input got) => got.isExit = true
  | (env, .expire) => deadline ≤ env.now
  | (_, .timer ..) | (_, .handshake) | (_, .answer _) => False

/-- The front end has left, and the debuggee is given up. -/
structure Left (s : Server) : Prop where
  unserved : s.stage ≠ .serving
  detached : s.session.link.isAttached = false
  unsettled : s.session.handshake = none
  pending : s.session.pending.entries = []

def answering (s : Server) (index : Nat) : Server :=
  { s with session := { s.session with released := s.session.released.eraseIdx index } }

def answer (c : Completion Nat) : Message :=
  .response (Session.stackTraceResponse c)

def answers (s : Server) : List Message :=
  s.session.released.map answer

/-- What a server turns into by a move once the front end has left, and what the move does. -/
inductive Parting (env : Environment) (s : Server) : Move → Server → List Effect → Prop
  | answered (index : Nat) : Parting env s (.answer index) (s.answering index)
      ((s.session.released[index]?.map answer).toList.map .send)
  | closed (move : Move) (deadline : Nat) : s.stage = .closing deadline →
      Over deadline (env, move) → Parting env s move { s with stage := .closed } []
  | idle (move : Move) : (∀ index, move ≠ .answer index) →
      (∀ deadline, s.stage = .closing deadline → ¬ Over deadline (env, move)) →
      Parting env s move s []

variable {env : Environment} {s t : Server} {move : Move} {es : List Effect}

section Courses

@[simp] theorem after_nil : s.after [] = s := rfl

@[simp] theorem effects_nil : s.effects [] = [] := rfl

@[simp] theorem after_cons (env : Environment) (move : Move) (course : Course) :
    s.after ((env, move) :: course) = (s.step env move).1.after course := rfl

@[simp] theorem effects_cons (env : Environment) (move : Move) (course : Course) :
    s.effects ((env, move) :: course) =
      (s.step env move).2 ++ (s.step env move).1.effects course := rfl

/-- The session of a server makes one of its own moves, or none. -/
theorem step_session (env : Environment) (s : Server) (move : Move) :
    (s.step env move).1.session = s.session ∨
      ∃ m, (s.step env move).1.session = (s.session.step env m).1 := by
  cases move with
  | input input =>
    exact (s.handle_session env input).imp_right fun ⟨m, hm, _⟩ => ⟨m, hm⟩
  | timer key generation => exact Or.inr ⟨.timer key generation, rfl⟩
  | handshake => exact Or.inr ⟨.handshake, rfl⟩
  | answer index => exact Or.inr ⟨.answer index, rfl⟩
  | expire =>
    left
    rw [step, expire_eq]

/-- What every move of a session keeps, a server keeps of its session. -/
theorem after_session {P : Session → Prop} (hs : P s.session)
    (hstep : ∀ t env move, P t → P (Session.step env t move).1) (course : Course) :
    P (s.after course).session := by
  induction course generalizing s with
  | nil => exact hs
  | cons happened course ih =>
    obtain ⟨env, move⟩ := happened
    rw [after_cons]
    apply ih
    rcases s.step_session env move with he | ⟨m, he⟩
    · exact he ▸ hs
    · exact he ▸ hstep _ env m hs

theorem run_sound (config : Config) (roots : List String) (course : Course) :
    ((start config roots).after course).session.DeskSound :=
  after_session (Session.start_sound config roots) (fun t env move ht => t.step_sound env ht move)
    course

theorem run_config (config : Config) (roots : List String) (course : Course) :
    ((start config roots).after course).session.config = config :=
  after_session (P := fun t => t.config = config) rfl
    (fun t env move ht => (t.step_transition env move).config_eq.trans ht) course

end Courses

section Leaving

theorem timer_idle (hs : s.Left) (key generation : Nat) :
    s.turn env (.timer key generation) = (s, []) := by
  have hfire : s.session.pending.fire key generation = (none, s.session.pending) := by
    simp [Table.fire, Table.find?, hs.pending]
  simp [turn, Session.step, Session.fireTimer, hfire]

theorem handshake_idle (hs : s.Left) : s.turn env .handshake = (s, []) := by
  simp [turn, Session.step, Session.stepHandshake, hs.unsettled]

theorem answer_turn (env : Environment) (s : Server) (index : Nat) :
    s.turn env (.answer index) =
      (s.answering index, (s.session.released[index]?.map answer).toList.map .send) := by
  cases hc : s.session.released[index]? with
  | none =>
    have hlen := List.getElem?_eq_none_iff.mp hc
    simp [turn, Session.step, Session.answerReleased, hc, answering,
      List.eraseIdx_of_length_le hlen]
  | some c => simp [turn, Session.step, Session.answerReleased, hc, answering, answer,
      Session.respond]

theorem handle_closing {deadline : Nat} (hs : s.stage = .closing deadline) (env : Environment)
    (input : Input) :
    s.handle env input = (if input.isExit then { s with stage := .closed } else s, []) := by
  cases input with
  | report r => cases r <;> simp [handle, hs, Input.isExit]
  | _ => simp [handle, hs, Input.isExit]

/-- Once the front end has left only the exit counts. -/
theorem handle_left (hs : s.stage ≠ .serving) (env : Environment) (input : Input) :
    Parting env s (.input input) (s.handle env input).1 (s.handle env input).2 := by
  cases hstage : s.stage with
  | serving => exact absurd hstage hs
  | closed =>
    have hidle : s.handle env input = (s, []) := by simp [handle, hstage]
    rw [hidle]
    exact .idle _ (by rintro _ ⟨⟩) (by simp [hstage])
  | closing deadline =>
    rw [handle_closing hstage]
    split
    · rename_i hexit
      exact .closed _ deadline hstage hexit
    · rename_i hexit
      exact .idle _ (by rintro _ ⟨⟩) fun _ _ => hexit

theorem expire_left (env : Environment) (s : Server) :
    Parting env s .expire (s.expire env.now) [] := by
  cases hstage : s.stage with
  | closing deadline =>
    by_cases hd : deadline ≤ env.now
    · have hclosed : s.expire env.now = { s with stage := .closed } := by
        simp [expire, hstage, hd]
      rw [hclosed]
      exact .closed _ deadline hstage hd
    · have hidle : s.expire env.now = s := by simp [expire, hstage, hd]
      rw [hidle]
      refine .idle _ (by rintro _ ⟨⟩) fun other hother => ?_
      obtain rfl := Stage.closing.inj (hstage.symm.trans hother)
      exact hd
  | serving | closed =>
    have hidle : s.expire env.now = s := by simp [expire, hstage]
    rw [hidle]
    exact .idle _ (by rintro _ ⟨⟩) (by simp [hstage])

/-- The cases of a move once the front end has left. -/
theorem step_parting (hs : s.Left) (env : Environment) (move : Move) :
    Parting env s move (s.step env move).1 (s.step env move).2 := by
  cases move with
  | input input => exact handle_left hs.unserved env input
  | timer key generation =>
    rw [step, timer_idle hs]
    exact .idle _ nofun fun _ _ => id
  | handshake =>
    rw [step, handshake_idle hs]
    exact .idle _ nofun fun _ _ => id
  | answer index =>
    rw [step, answer_turn]
    exact .answered index
  | expire => exact expire_left env s

theorem Parting.left (h : Parting env s move t es) (hs : s.Left) : t.Left := by
  cases h with
  | answered index => exact ⟨hs.unserved, hs.detached, hs.unsettled, hs.pending⟩
  | closed => exact ⟨nofun, hs.detached, hs.unsettled, hs.pending⟩
  | idle => exact hs

/-- What is sent was released, and what is not sent stays so. -/
theorem Parting.sent (h : Parting env s move t es) :
    (messages es ++ t.answers).Perm s.answers := by
  cases h with
  | answered index =>
    have htakes := (s.session.answer_takes index).map answer
    rw [(s.session.answer_desk index).2] at htakes
    cases hc : s.session.released[index]? <;>
      simpa [messages, answers, answering, hc] using htakes
  | closed | idle => exact List.Perm.refl _

theorem Parting.silent (h : Parting env s move t es) : es = (messages es).map .send := by
  cases h with
  | answered index => cases s.session.released[index]? <;> rfl
  | closed | idle => rfl

theorem Parting.session (h : Parting env s move t es) :
    t.session = { s.session with released := t.session.released } := by
  cases h <;> rfl

/-- A move changes the stage only where it ends the wait. -/
theorem Parting.stage (h : Parting env s move t es) {deadline : Nat}
    (hs : s.stage = .closing deadline) :
    (Over deadline (env, move) ∧ t.stage = .closed) ∨
      (¬ Over deadline (env, move) ∧ t.stage = .closing deadline) := by
  cases h with
  | answered index => exact Or.inr ⟨id, hs⟩
  | closed move other hother hover =>
    obtain rfl := Stage.closing.inj (hs.symm.trans hother)
    exact Or.inl ⟨hover, rfl⟩
  | idle move _ hnot => exact Or.inr ⟨hnot deadline hs, hs⟩

theorem Parting.stays_closed (h : Parting env s move t es) (hs : s.stage = .closed) :
    t.stage = .closed := by
  cases h with
  | answered | idle => exact hs
  | closed => rfl

/-- What does not count does nothing. -/
theorem Parting.discarded (h : Parting env s move t es) (hm : move.counts = false) :
    t = s ∧ es = [] := by
  cases h with
  | answered index => cases hm
  | closed move deadline _ hover => cases move <;> simp_all [Move.counts, Over]
  | idle => exact ⟨rfl, rfl⟩

end Leaving

section Waiting

/-- Of the answers that were left, those that are not sent are still there to be sent. -/
theorem after_sent (hs : s.Left) (later : Course) :
    (messages (s.effects later) ++ (s.after later).answers).Perm s.answers := by
  induction later generalizing s with
  | nil => exact List.Perm.refl _
  | cons happened later ih =>
    obtain ⟨env, move⟩ := happened
    have h := step_parting hs env move
    have hmessages : messages (s.effects ((env, move) :: later)) =
        messages (s.step env move).2 ++ messages ((s.step env move).1.effects later) :=
      List.filterMap_append
    rw [hmessages, after_cons, List.append_assoc]
    exact ((ih (h.left hs)).append_left _).trans h.sent

theorem after_silent (hs : s.Left) (later : Course) :
    s.effects later = (messages (s.effects later)).map .send := by
  induction later generalizing s with
  | nil => rfl
  | cons happened later ih =>
    obtain ⟨env, move⟩ := happened
    have h := step_parting hs env move
    have hrest := ih (h.left hs)
    rw [effects_cons, messages, List.filterMap_append, List.map_append]
    exact congrArg₂ (· ++ ·) h.silent hrest

theorem after_same_session (hs : s.Left) (later : Course) :
    (s.after later).session =
      { s.session with released := (s.after later).session.released } := by
  induction later generalizing s with
  | nil => rfl
  | cons happened later ih =>
    have h := step_parting hs happened.1 happened.2
    have hrest := ih (h.left hs)
    rw [h.session] at hrest
    exact hrest

theorem after_closed (hs : s.Left) (hc : s.stage = .closed) (later : Course) :
    (s.after later).stage = .closed := by
  induction later generalizing s with
  | nil => exact hc
  | cons happened later ih =>
    have h := step_parting hs happened.1 happened.2
    exact ih (h.left hs) (h.stays_closed hc)

theorem isDone_iff : s.isDone = true ↔ s.stage = .closed := by
  cases hs : s.stage <;> simp [isDone, hs]

/-- The server is done exactly if the exit was reported or the grace period is over. -/
theorem after_done_iff (hs : s.Left) {deadline : Nat} (hc : s.stage = .closing deadline)
    (later : Course) :
    (s.after later).isDone = true ↔ ∃ happened ∈ later, Over deadline happened := by
  induction later generalizing s with
  | nil => simp [isDone_iff, hc]
  | cons happened later ih =>
    obtain ⟨env, move⟩ := happened
    have h := step_parting hs env move
    simp only [after_cons, List.mem_cons, exists_eq_or_imp]
    rcases h.stage hc with ⟨hover, hstage⟩ | ⟨hnot, hstage⟩
    · simp [isDone_iff, after_closed (h.left hs) hstage, hover]
    · simp [ih (h.left hs) hstage, hnot]

/-- Moves that do not count, such as all other reports, can be left out. -/
theorem run_counts (hs : s.Left) (later : Course) :
    s.run (later.filter (·.2.counts)) = s.run later := by
  induction later generalizing s with
  | nil => rfl
  | cons happened later ih =>
    obtain ⟨env, move⟩ := happened
    have h := step_parting hs env move
    cases hm : move.counts with
    | true => simp [run, hm, ih (h.left hs)]
    | false =>
      obtain ⟨hsame, hnothing⟩ := h.discarded hm
      simp [run, hm, hsame, hnothing, ih hs]

/-- What is released can all be answered. -/
theorem answers_run_out (s : Server) (env : Environment) :
    (s.after (List.replicate s.session.released.length (env, .answer 0))).answers = [] := by
  have hsession (n : Nat) (s : Server) :
      (s.after (List.replicate n (env, .answer 0))).session =
        s.session.after (List.replicate n (env, .answer 0)) := by
    induction n generalizing s with
    | zero => rfl
    | succ n ih => exact ih _
  rw [answers, hsession, Session.answers_released]
  rfl

end Waiting

/-- What is left to a server `t` when the front end of `s` has left, in the course of what follows.
The session stays cut off. All that is done is to answer the stack traces: those that were released
before as they were completed, and those that were pending without frames. Each can be answered. No
report but the exit makes a difference, whether it was made before and not taken or is made now. -/
structure WindsUp (s t : Server) (later : Course) : Prop where
  cutOff : (t.after later).session =
    { s.session.cutOff with released := (t.after later).session.released }
  answered : (messages (t.effects later) ++ (t.after later).answers).Perm
    (s.answers ++ s.session.pending.entries.map fun e =>
      .response (.forRequest e.sink "stackTrace" (some Session.emptyStackTrace)))
  silent : t.effects later = (messages (t.effects later)).map .send
  answerable : ∃ tail : Course, (∀ happened ∈ tail, ∃ index, happened.2 = .answer index) ∧
    ((t.after later).after tail).answers = []
  discards : t.run (later.filter (·.2.counts)) = t.run later

def Runs (env : Environment) (s : Server) : Prop :=
  s.session.hasProcess = true ∧ env.hasExited = false

instance (env : Environment) (s : Server) : Decidable (Runs env s) :=
  inferInstanceAs (Decidable (_ ∧ _))

theorem handle_ending (env : Environment) (hs : s.isServing = true) {input : Input}
    (hend : input.endsStream = true) :
    (s.handle env input).1 = { s with
        session := s.session.cutOff
        stage := if Runs env s then .closing (env.now + s.session.config.shutdownGrace)
          else .closed } ∧
      outward (s.handle env input).2 = if Runs env s then [.stop] else [] := by
  have hruns : (s.session.hasProcess = true ∧ (!env.hasExited) = true) ↔ Runs env s := by
    simp [Runs]
  have hstop : outward (if Runs env s then [.stop] else []) =
      if Runs env s then [.stop] else [] := by
    split <;> rfl
  have hstage := isServing_iff.mp hs
  cases input with
  | broken =>
    simp only [handle, hstage, shutDown, Session.shutDown, hruns]
    exact ⟨trivial, hstop⟩
  | ended clean =>
    simp only [handle, hstage, shutDown, Session.shutDown, hruns]
    refine ⟨trivial, ?_⟩
    cases clean <;> exact hstop
  | request | malformed | report => cases hend

/-- A server that was shut down winds up, in every course that follows. -/
theorem winds_up (hk : s.session.DeskSound) (hsession : t.session = s.session.cutOff)
    (ht : t.Left) (later : Course) : WindsUp s t later where
  cutOff := hsession ▸ after_same_session ht later
  answered := by
    have hanswers : t.answers = s.answers ++ s.session.pending.entries.map fun e =>
        .response (.forRequest e.sink "stackTrace" (some Session.emptyStackTrace)) := by
      rw [answers, hsession]
      simp only [Session.cutOff, Session.releaseAll, Table.drain, List.map_append, List.map_map]
      refine congrArg (s.answers ++ ·) (List.map_congr_left fun e he => ?_)
      simp [answer, Session.stackTraceResponse, Entry.completeWithFallback, Entry.complete,
        hk.fallback e he]
    exact hanswers ▸ after_sent ht later
  silent := after_silent ht later
  answerable := by
    refine ⟨List.replicate (t.after later).session.released.length (Session.willing 0, .answer 0),
      fun happened hm => ⟨0, ?_⟩, answers_run_out _ _⟩
    rw [List.eq_of_mem_replicate hm]
  discards := run_counts ht later

/-- Whatever has happened before, the end of the front end's stream, or a frame that cannot be read,
shuts a server down. It gives the debuggee up, and asks it to stop exactly if it runs. It is done at
once if the debuggee does not run, else as soon as that exits or the time to wait for it is over.
Until then, and after it, nothing but answers to stack traces is sent. -/
theorem shuts_down_from_every_state (config : Config) (roots : List String) (course : Course)
    (env : Environment) (input : Input)
    (hs : ((start config roots).after course).isServing = true)
    (hend : input.endsStream = true) :
    let s := (start config roots).after course
    let t := (s.handle env input).1
    t.session.link.isAttached = false ∧ t.session.handshake = none ∧
      t.session.pending.entries = [] ∧
      outward (s.handle env input).2 = (if Runs env s then [.stop] else []) ∧
      (∀ later, WindsUp s t later) ∧
      ∀ later, (t.after later).isDone = true ↔
        (Runs env s → ∃ happened ∈ later, Over (env.now + config.shutdownGrace) happened) := by
  intro s t
  obtain ⟨hhandled, houtward⟩ := handle_ending env hs hend
  have hsession : t.session = s.session.cutOff := congrArg Server.session hhandled
  have hstage : t.stage = if Runs env s then .closing (env.now + config.shutdownGrace)
      else .closed := by
    rw [← run_config config roots course]
    exact congrArg Server.stage hhandled
  have hleft : t.Left := by
    refine ⟨?_, hsession ▸ rfl, hsession ▸ rfl, hsession ▸ rfl⟩
    rw [hstage]
    split <;> nofun
  refine ⟨hleft.detached, hleft.unsettled, hleft.pending, houtward,
    winds_up (run_sound config roots course) hsession hleft, fun later => ?_⟩
  by_cases hruns : Runs env s
  · rw [if_pos hruns] at hstage
    rw [after_done_iff hleft hstage]
    exact ⟨fun h _ => h, fun h => h hruns⟩
  · rw [if_neg hruns] at hstage
    rw [isDone_iff, after_closed hleft hstage]
    exact ⟨fun _ h => absurd h hruns, fun _ => rfl⟩

def asking : Course :=
  [(Session.willing 0, .input (.request
      { seq := 1, command := "launch", arguments := .record [("program", .string "/w/a")] })),
    (Session.willing 0, .handshake), (Session.willing 500, .handshake),
    (Session.willing 600, .handshake),
    (Session.willing 600, .input (.request (Session.traceRequest 2)))]

/-- The debuggee replies to the stack trace and stops before it exits. -/
def lastWords : Course :=
  [(Session.willing 700, .input (.report (.record (.reply
      { command := "stackTrace"
        body := .record [("totalFrames", .nat 1)]
        requestSeq := some 3 })))),
    (Session.willing 800, .input (.report (.record (.event "stopped" .null)))),
    (Session.willing 900, .answer 0), (Session.willing 900, .input (.report (.exited {})))]

theorem last_words_unheard :
    let s := (start {} ["/w"]).after asking
    let t := (s.handle (Session.willing 700) (.ended true)).1
    s.isServing = true ∧ Runs (Session.willing 700) s ∧ t.isDone = false ∧
      WindsUp s t lastWords ∧ (t.after lastWords).isDone = true ∧
      messages (t.effects lastWords) =
        [.response (.forRequest 2 "stackTrace" (some Session.emptyStackTrace))] := by
  intro s t
  obtain ⟨_, _, _, _, hwinds, hdone⟩ :=
    shuts_down_from_every_state {} ["/w"] asking (Session.willing 700) (.ended true) rfl rfl
  refine ⟨rfl, ⟨rfl, rfl⟩, rfl, hwinds lastWords, ?_, rfl⟩
  have hexit : (Session.willing 900, Move.input (.report (.exited {}))) ∈ lastWords := by
    simp [lastWords]
  exact (hdone lastWords).mpr fun _ => ⟨_, hexit, rfl⟩

end DebugAdapter.Server
