import DebugAdapter.Proofs.Session.Announcement
import DebugAdapter.Proofs.Session.Phases
import DebugAdapter.Proofs.Session.Sending

namespace DebugAdapter.Session

open Effect Correlation

/-- Nothing waits for a debuggee that there is no link to. -/
def Tended (s : Session) : Prop :=
  s.link.isAttached = false → s.pending.entries = [] ∧ s.handshake = none

/-- Over, with no link left and no handshake to use one. -/
structure CutOff (s : Session) : Prop where
  terminated : s.phase = .terminated
  detached : s.link.isAttached = false
  unsettled : s.handshake = none

/-- Over, with no link left, whatever handshake there may be. -/
structure Severed (s : Session) : Prop where
  terminated : s.phase = .terminated
  detached : s.link.isAttached = false

structure Remains where
  phase : Phase
  announced : Bool
  attached : Bool
  pending : List (Entry Nat)
  shakesHands : Bool

def remains (s : Session) : Remains :=
  ⟨s.phase, s.endAnnounced, s.link.isAttached, s.pending.entries, s.handshake.isSome⟩

/-- The stack traces that were pending in `s` are released in `t`, and from there on the debuggee is
told nothing. -/
structure LaidToRest (s t : Session) : Prop where
  pending : t.pending.entries = []
  released : t.released = s.released ++ s.pending.entries.map Entry.completeWithFallback
  silent : ∀ later, commands (t.effects later) = []

variable {env : Environment} {s t : Session} {move : Move} {es : List Effect}

theorem matchReply_empty (hs : s.pending.entries = []) (r : Debuggee.Reply) :
    (s.matchReply r).2.entries = [] := by
  have hcommand : s.pending.resolveCommand r.command r.body = (none, s.pending) := by
    simp [Table.resolveCommand, Table.oldest?, hs]
  cases hr : r.requestSeq <;> simp [matchReply, hr, Table.resolve, Table.find?, hs, hcommand]

theorem fire_empty (hs : s.pending.entries = []) (key generation : Nat) :
    (s.fireTimer key generation).pending.entries = [] := by
  simp [fireTimer, Table.fire, Table.find?, hs]

/-- Whatever detaches also drains and drops the handshake. -/
theorem Tended.transition (hs : s.Tended) (h : Transition env s move t es) : t.Tended := by
  cases h with
  | disconnected | exited | shutDown => exact fun _ => ⟨rfl, rfl⟩
  | started => exact fun hd => by simp [Debuggee.Link.attach, Debuggee.Link.isAttached] at hd
  | breakpointsSet | forwarded | unasked =>
    intro hd
    rw [sending_attached] at hd
    exact hs hd
  | deferred r hd =>
    intro hdetached
    have hlink := s.sending_attached env "stackTrace" (stackTraceArguments r)
    simp [hdetached, deferred_attached hd] at hlink
  | replied r =>
    intro hd
    obtain ⟨hp, hh⟩ := hs hd
    exact ⟨matchReply_empty (s := { s with heard := true }) hp r, hh⟩
  | fired key generation =>
    intro hd
    obtain ⟨hp, hh⟩ := hs hd
    exact ⟨fire_empty hp key generation, hh⟩
  | settling program hh => exact fun hd => by simp [(hs hd).2] at hh
  | greetingSent program deadline hh =>
    intro hd
    have hlink := s.sending_attached env "initialize" (.record [])
    have hdetached : s.link.isAttached = false := hlink ▸ hd
    simp [(hs hdetached).2] at hh
  | launchSent program deadline hh =>
    intro hd
    have hlink := s.sending_attached env "launch" (.object [("program", .string program)])
    have hdetached : s.link.isAttached = false := hlink ▸ hd
    exact ⟨(hs hdetached).1, rfl⟩
  | _ => exact hs

theorem tended_after (config : Config) (roots : List String) (course : Course) :
    ((start config roots).after course).Tended :=
  after_induction (P := Tended) (fun _ => ⟨rfl, rfl⟩)
    (fun s env move hs => hs.transition (s.step_transition env move)) course

theorem CutOff.severed (hs : s.CutOff) : s.Severed :=
  ⟨hs.terminated, hs.detached⟩

/-- Once severed a session stays so, and tells the debuggee nothing. -/
theorem Severed.transition (hs : s.Severed) (h : Transition env s move t es) :
    t.Severed ∧ commands es = [] := by
  have hterminated : t.phase = .terminated := by
    have hrank := h.advances.forward
    rw [hs.terminated] at hrank
    exact Phase.eq_terminated hrank
  rcases h.link_cases with ⟨command, arguments, _, hl, hw⟩ | ⟨_, hw, hl | hl | ⟨hu, _⟩⟩
  · -- What is sent finds no link.
    have hdetached : t.link.isAttached = false := by
      rw [hl, sending_attached, hs.detached]
    rw [hw, s.link.send_unheard _ _ _ (by simp [hs.detached])]
    exact ⟨⟨hterminated, hdetached⟩, rfl⟩
  · exact ⟨⟨hterminated, hl ▸ hs.detached⟩, hw⟩
  · exact ⟨⟨hterminated, hl ▸ rfl⟩, hw⟩
  · -- No launch can attach a new one.
    simp [Unlaunched, hs.terminated] at hu

/-- A session that is over stays so, and does not attach again. -/
theorem Severed.after (hs : s.Severed) (later : Course) : (s.after later).Severed :=
  after_induction hs (fun t env move ht => (ht.transition (t.step_transition env move)).1) later

theorem Severed.silent (hs : s.Severed) (later : Course) : commands (s.effects later) = [] := by
  induction later generalizing s with
  | nil => rfl
  | cons happened later ih =>
    obtain ⟨env, move⟩ := happened
    obtain ⟨hnext, hnothing⟩ := hs.transition (s.step_transition env move)
    rw [pick_outward commands_picks] at hnothing
    rw [effects_cons, commands_picks.append, hnothing, ih hnext, List.nil_append]

theorem CutOff.silent (hs : s.CutOff) (later : Course) : commands (s.effects later) = [] :=
  hs.severed.silent later

def outlived (s : Session) : Session :=
  { s with heard := true, phase := .terminated, endAnnounced := true }

theorem step_cutsOff (s : Session) (env : Environment) (hm : move.cutsOff = true) :
    (s.step env move).1 = s.finished := by
  unfold Move.cutsOff at hm
  split at hm
  · rename_i r
    have hr : r.command = "disconnect" ∨ r.command = "terminate" := by simpa using hm
    have hobey : s.obey env r = s.disconnect r := by
      rcases hr with hr | hr <;> simp [obey, hr]
    simp [step, handleRequest, hobey, disconnect_session, finished]
  · simp [step, handleReport, handleExit, finished]
  · simp at hm

theorem step_outlived (s : Session) (env : Environment) (hends : move.ends = true)
    (hm : move.cutsOff = false) : (s.step env move).1 = s.outlived := by
  unfold Move.ends at hends
  split at hends
  · rename_i name body
    have hname : name = "terminated" := by simpa using hends
    simp [step, handleReport, handleEvent, hname, outlived]
  · simp [hm] at hends

/-- A move that brings the end finishes the session or leaves it to outlive its debuggee. -/
theorem step_ends (s : Session) (env : Environment) (hends : move.ends = true) :
    (s.step env move).1 = s.finished ∨ (s.step env move).1 = s.outlived := by
  cases hm : move.cutsOff with
  | true => exact Or.inl (s.step_cutsOff env hm)
  | false => exact Or.inr (s.step_outlived env hends hm)

theorem finished_cutOff (s : Session) : s.finished.CutOff :=
  ⟨rfl, rfl, rfl⟩

theorem finished_laid (s : Session) : s.LaidToRest s.finished :=
  ⟨rfl, rfl, s.finished_cutOff.silent⟩

theorem outlived_cutOff (hs : s.Tended) (hd : s.link.isAttached = false) : s.outlived.CutOff :=
  ⟨rfl, hd, (hs hd).2⟩

theorem outlived_laid (hs : s.Tended) (hd : s.link.isAttached = false) :
    s.LaidToRest s.outlived where
  pending := (hs hd).1
  released := by simp [outlived, (hs hd).1]
  silent := (outlived_cutOff hs hd).silent

theorem outlived_remains (hs : s.Tended) (hd : s.link.isAttached = false) :
    s.outlived.remains = s.finished.remains := by
  obtain ⟨hp, hh⟩ := hs hd
  simp only [remains, outlived, hp, hh, hd]
  rfl

theorem step_remains (hs : s.Tended) (hd : s.link.isAttached = false) (env : Environment)
    (hends : move.ends = true) : (s.step env move).1.remains = s.finished.remains := by
  rcases s.step_ends env hends with he | he
  · rw [he]
  · rw [he, outlived_remains hs hd]

theorem step_laid (hs : s.Tended) (hd : s.link.isAttached = false) (env : Environment)
    (hends : move.ends = true) : s.LaidToRest (s.step env move).1 := by
  rcases s.step_ends env hends with he | he
  · rw [he]
    exact s.finished_laid
  · rw [he]
    exact outlived_laid hs hd

/-- As long as there is a link, a debuggee that takes what it is told can be told something. -/
theorem attached_not_silent (hs : s.link.isAttached = true) :
    ∃ later, commands (s.effects later) ≠ [] := by
  let r : Frontend.Request := { seq := 0, command := "continue" }
  refine ⟨[(willing 0, .request r)], ?_⟩
  have hstep : outward (s.step (willing 0) (.request r)).2 =
      s.writes (willing 0) "continue" (.record []) ++ [respond (.ok r none)] := by
    simp [step, handleRequest, obey, r, plainCommands]
  rw [effects_cons, effects_nil, List.append_nil, ← pick_outward commands_picks, hstep,
    commands_picks.append, commands_writes]
  rcases s.link.send_cases true "continue" (.record []) with
    ⟨_, _, queue, _, hsend⟩ | ⟨_, hacc, _⟩ | ⟨hd, _⟩
  · simp [willing, hsend]
  · simp at hacc
  · simp [hs] at hd

/-- However a session ends, it is over and the end is announced. Where the front end or an exit ends
it, the same is left, and the debuggee is done with. Where the debuggee itself says that it is over,
that holds exactly if there was no link to it. -/
theorem endings_agree_iff_detached (config : Config) (roots : List String) (course : Course) :
    let s := (start config roots).after course
    (∀ env move, move.ends = true →
      (s.step env move).1.phase = .terminated ∧ (s.step env move).1.endAnnounced = true) ∧
    (∀ env move env' move', move.cutsOff = true → move'.cutsOff = true →
      (s.step env move).1 = (s.step env' move').1 ∧ s.LaidToRest (s.step env move).1) ∧
    ((∀ env move env' move', move.ends = true → move'.ends = true →
      (s.step env move).1.remains = (s.step env' move').1.remains) ↔ s.link.isAttached = false) ∧
    ((∀ env move, move.ends = true → s.LaidToRest (s.step env move).1) ↔
      s.link.isAttached = false) := by
  intro s
  have hs : s.Tended := tended_after config roots course
  let exit : Move := .report (.exited {})
  let word : Move := .report (.record (.event "terminated" .null))
  have hexit : (s.step (willing 0) exit).1 = s.finished := s.step_cutsOff _ rfl
  have hword : (s.step (willing 0) word).1 = s.outlived := s.step_outlived _ rfl rfl
  refine ⟨?_, ?_, ⟨?_, ?_⟩, ?_, ?_⟩
  · intro env move hends
    rcases s.step_ends env hends with he | he <;> (rw [he]; exact ⟨rfl, rfl⟩)
  · intro env move env' move' hm hm'
    rw [s.step_cutsOff env hm, s.step_cutsOff env' hm']
    exact ⟨rfl, s.finished_laid⟩
  · intro hagree
    have hsame := hagree (willing 0) word (willing 0) exit rfl rfl
    rw [hword, hexit] at hsame
    exact congrArg Remains.attached hsame
  · intro hd env move env' move' hends hends'
    rw [step_remains hs hd env hends, step_remains hs hd env' hends']
  · -- With a link left, a command that follows is written.
    intro hlaid
    by_contra hattached
    have hrest := hlaid (willing 0) word rfl
    rw [hword] at hrest
    have houtlived : s.outlived.link.isAttached = true := Bool.of_not_eq_false hattached
    obtain ⟨later, hl⟩ := attached_not_silent houtlived
    exact hl (hrest.silent later)
  · intro hd env move hends
    exact step_laid hs hd env hends

/-- Before a debuggee is started there is nothing to leave behind. -/
theorem endings_agree_before_launch :
    let s := (start {} ["/w"]).after []
    let word : Move := .report (.record (.event "terminated" .null))
    let bye : Move := .request { seq := 1, command := "disconnect" }
    s.link.isAttached = false ∧
      (s.step (willing 0) word).1.remains = (s.step (willing 0) bye).1.remains := by
  intro s word bye
  have hagree := (endings_agree_iff_detached {} ["/w"] []).2.2.1.mpr rfl
  exact ⟨rfl, hagree (willing 0) word (willing 0) bye rfl rfl⟩

/-- With a stack trace pending the debuggee says that it is over, and is told the next command. -/
theorem told_after_its_end :
    let s := (start {} ["/w"]).after tracing
    let word : Move := .report (.record (.event "terminated" .null))
    let t := (s.step (willing 700) word).1
    let next : Move := .request { seq := 5, command := "continue" }
    t.remains ≠ (s.step (willing 700) (.report (.exited {}))).1.remains ∧
      t.phase = .terminated ∧ t.pending.entries.map Entry.key = [3] ∧
      commands (t.step (willing 800) next).2 = [.make 4 "continue" (.record [])] := by
  intro s word t next
  refine ⟨fun hsame => ?_, rfl, rfl, rfl⟩
  have hattached := congrArg Remains.attached hsame
  exact absurd hattached (by decide)

end DebugAdapter.Session
