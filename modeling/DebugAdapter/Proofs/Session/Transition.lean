import DebugAdapter.Proofs.Session.Handling

namespace DebugAdapter

/-- What effects do to the front end, the debuggee and the system. -/
def Effect.outward (effects : List Effect) : List Effect :=
  effects.filter fun
    | .log _ => false
    | _ => true

/-- What is picked out of effects, out of each by itself and nothing out of the log. -/
structure Effect.Picks {β : Type} (pick : List Effect → List β) : Prop where
  nil : pick [] = []
  append : ∀ es fs, pick (es ++ fs) = pick es ++ pick fs
  log : ∀ entry, pick [.log entry] = []

/-- A filter is a projection if it passes over the log. -/
theorem Effect.picks_filterMap {β : Type} {f : Effect → Option β}
    (hlog : ∀ entry, f (.log entry) = none) : Picks (List.filterMap f) where
  nil := rfl
  append _ _ := List.filterMap_append
  log entry := List.filterMap_cons_none (hlog entry)

namespace Session

open Frontend Effect

/-- True before a debuggee was started, as long as the session has not ended. -/
def Unlaunched (s : Session) : Prop :=
  s.phase = .idle ∨ s.phase = .initializing

/-- What is said at the end, unless it was said before. -/
def farewell (s : Session) : List Effect :=
  if s.endAnnounced then [] else [emit .terminated]

/-- What a command that is sent now brings to the debuggee: it and those queued before it. -/
def writes (env : Environment) (s : Session) (command : String) (arguments : Json) : List Effect :=
  (s.link.send env.accepts command arguments).written.map .write

def sending (env : Environment) (s : Session) (command : String) (arguments : Json) : Session :=
  { s with link := (s.link.send env.accepts command arguments).link }

def finished (s : Session) : Session :=
  { s.cutOff with phase := .terminated, endAnnounced := true }

def breakpointArguments (r : Request) : Json :=
  .object [("path", sourcePath r), ("lines", .array ((requestedBreakpoints r).map breakpointLine))]

def registering (env : Environment) (s : Session) (r : Request) :
    Option (Correlation.Completion Nat) × Correlation.Table Nat :=
  s.pending.register s.link.nextSeq "stackTrace" r.seq emptyStackTrace
    (env.now + s.config.stackTraceTimeout)

def handshakeDue (env : Environment) (s : Session) : Prop :=
  match s.handshake with
  | none => False
  | some (.starting _) => True
  | some (.settling _ deadline) => s.heard ∨ deadline ≤ env.now
  | some (.acknowledging _ deadline) => s.acknowledged ∨ deadline ≤ env.now

def refusal (r : Request) (e : SessionError) : Effect :=
  respond (.error r e.code e.message)

/-- What a session turns into by a move, and what the move does outwardly. -/
inductive Transition (env : Environment) (s : Session) : Move → Session → List Effect → Prop
  | greeted (r : Request) : r.command = "initialize" →
      Transition env s (.request r)
        { s with phase := if s.phase = .idle then .initializing else s.phase }
        [respond (.ok r (some capabilities)), emit .initialized]
  | refused (r : Request) (e : SessionError) : r.command = "launch" → s.launchSpec r = .error e →
      Transition env s (.request r) s [refusal r e]
  | notStarted (r : Request) (program : String) (spec : Debuggee.LaunchSpec)
      (failure : Debuggee.SpawnFailure) : r.command = "launch" → s.Unlaunched →
      s.launchSpec r = .ok (program, spec) → env.spawn spec = some failure →
      Transition env s (.request r) s
        [.spawn spec false, refusal r (.launch (.ofFailure spec.executable failure))]
  | started (r : Request) (program : String) (spec : Debuggee.LaunchSpec) : r.command = "launch" →
      s.Unlaunched → s.launchSpec r = .ok (program, spec) → env.spawn spec = none →
      Transition env s (.request r)
        { s with
          phase := .running
          link := s.link.attach
          hasProcess := true
          handshake := some (.starting program) }
        [.spawn spec true, respond (.ok r none)]
  | disconnected (r : Request) : r.command = "disconnect" ∨ r.command = "terminate" →
      Transition env s (.request r) s.finished
        ((if s.hasProcess then [.stop] else []) ++ respond (.ok r none) :: s.farewell)
  | breakpointsSet (r : Request) : r.command = "setBreakpoints" →
      Transition env s (.request r) (s.sending env "setBreakpoints" (breakpointArguments r))
        (s.writes env "setBreakpoints" (breakpointArguments r) ++ [respond (.ok r (some (.object
          [("breakpoints", .array ((requestedBreakpoints r).map verifiedBreakpoint))])))])
  | forwarded (r : Request) : r.command ∈ plainCommands →
      Transition env s (.request r) (s.sending env r.command (.record []))
        (s.writes env r.command (.record []) ++ [respond (.ok r none)])
  | unasked (r : Request) : r.command = "stackTrace" → s.defers env r = false →
      Transition env s (.request r) (s.sending env "stackTrace" (stackTraceArguments r))
        [respond (.ok r (some emptyStackTrace))]
  | deferred (r : Request) : s.defers env r = true →
      Transition env s (.request r)
        { s.sending env "stackTrace" (stackTraceArguments r) with
          pending := (s.registering env r).2
          released := s.released ++ (s.registering env r).1.toList }
        (s.writes env "stackTrace" (stackTraceArguments r))
  | threadsNamed (r : Request) : r.command = "threads" →
      Transition env s (.request r) s [threads r]
  | notUnderstood (r : Request) : r.command ∉ ["initialize", "launch", "disconnect", "terminate",
        "setBreakpoints", "stackTrace", "threads"] ++ plainCommands →
      Transition env s (.request r) s
        [respond (.error r unsupportedCode ("unsupported request '" ++ r.command ++ "'"))]
  | stopped (body : Json) : Transition env s (.report (.record (.event "stopped" body)))
      { s with heard := true } [emit (stoppedEvent body)]
  | ended (body : Json) : Transition env s (.report (.record (.event "terminated" body)))
      { s with heard := true, phase := .terminated, endAnnounced := true } s.farewell
  | printed (body : Json) : Transition env s (.report (.record (.event "output" body)))
      { s with heard := true } [emit (outputEvent body)]
  | ignored (name : String) (body : Json) : name ∉ ["stopped", "terminated", "output"] →
      Transition env s (.report (.record (.event name body))) { s with heard := true } []
  | replied (r : Debuggee.Reply) : Transition env s (.report (.record (.reply r)))
      ({ s with heard := true }.handleReply r) []
  | misread (line : String) (reason : Debuggee.LineError) :
      Transition env s (.report (.malformed line reason)) s []
  | exited (info : Debuggee.ExitInfo) : Transition env s (.report (.exited info)) s.finished
      (if s.endAnnounced then []
        else (info.code.map fun code => emit (.exited code)).toList ++ [emit .terminated])
  | fired (key generation : Nat) :
      Transition env s (.timer key generation) (s.fireTimer key generation) []
  | waited : ¬ s.handshakeDue env → Transition env s .handshake s []
  | settling (program : String) : s.handshake = some (.starting program) →
      Transition env s .handshake
        { s with handshake := some (.settling program (env.now + s.config.settleDelay)) } []
  | greetingSent (program : String) (deadline : Nat) :
      s.handshake = some (.settling program deadline) → s.heard ∨ deadline ≤ env.now →
      Transition env s .handshake
        { s.sending env "initialize" (.record []) with
          handshake := if s.link.isAttached && env.accepts then
            some (.acknowledging program (env.now + s.config.launchDelay)) else none }
        (s.writes env "initialize" (.record []))
  | launchSent (program : String) (deadline : Nat) :
      s.handshake = some (.acknowledging program deadline) → s.acknowledged ∨ deadline ≤ env.now →
      Transition env s .handshake
        { s.sending env "launch" (.object [("program", .string program)]) with handshake := none }
        (s.writes env "launch" (.object [("program", .string program)]))
  | answered (index : Nat) : Transition env s (.answer index)
      { s with released := s.released.eraseIdx index }
      (s.released[index]?.map fun c => respond (stackTraceResponse c)).toList
  | shutDown : Transition env s .shutDown s.cutOff
      (if s.hasProcess ∧ !env.hasExited then [.stop] else [])

section Outward

variable {es fs : List Effect}

@[simp] theorem outward_nil : outward [] = [] := rfl

@[simp] theorem outward_append : outward (es ++ fs) = outward es ++ outward fs :=
  List.filter_append ..

@[simp] theorem outward_note (severity : Severity) (fields : List String) :
    outward (note severity fields :: es) = outward es := rfl

@[simp] theorem outward_moved : outward (moved :: es) = outward es := rfl

@[simp] theorem outward_respond (r : Response) :
    outward (respond r :: es) = respond r :: outward es := rfl

@[simp] theorem outward_emit (e : Event) : outward (emit e :: es) = emit e :: outward es := rfl

@[simp] theorem outward_stop : outward (.stop :: es) = .stop :: outward es := rfl

@[simp] theorem outward_write (command : Debuggee.Command) :
    outward (.write command :: es) = .write command :: outward es := rfl

@[simp] theorem outward_writes (commands : List Debuggee.Command) :
    outward (commands.map .write) = commands.map .write := by
  induction commands with
  | nil => rfl
  | cons c commands ih => exact congrArg (.write c :: ·) ih

end Outward

section Picks

variable {β : Type} {pick : List Effect → List β} (hp : Picks pick)

include hp

/-- What is picked out of effects is picked out of what is outward. -/
theorem pick_outward (es : List Effect) : pick (outward es) = pick es := by
  induction es with
  | nil => rfl
  | cons e es ih =>
    have hcons (fs : List Effect) : pick (e :: fs) = pick [e] ++ pick fs := hp.append [e] fs
    cases e with
    | log entry =>
      rw [hcons, hp.log, List.nil_append]
      exact ih
    | send | write | spawn | stop =>
      rw [hcons, ← ih]
      exact hcons (outward es)

/-- A projection that passes over commands passes over all that a session writes. -/
theorem pick_writes (hw : ∀ command, pick [.write command] = []) (env : Environment) (s : Session)
    (command : String) (arguments : Json) : pick (s.writes env command arguments) = [] := by
  unfold writes
  generalize (s.link.send env.accepts command arguments).written = written
  induction written with
  | nil => exact hp.nil
  | cons c written ih =>
    rw [List.map_cons, ← List.singleton_append, hp.append, hw, ih]
    rfl

/-- A projection that passes over the end of the session passes over its farewell. -/
theorem pick_farewell (hf : pick [emit .terminated] = []) (s : Session) : pick s.farewell = [] := by
  unfold farewell
  split
  · exact hp.nil
  · exact hf

omit hp

theorem commands_picks : Picks commands :=
  picks_filterMap fun _ => rfl

theorem messages_picks : Picks messages :=
  picks_filterMap fun _ => rfl

end Picks

theorem sending_attached (env : Environment) (s : Session) (command : String) (arguments : Json) :
    (s.sending env command arguments).link.isAttached = s.link.isAttached :=
  s.link.send_attached env.accepts command arguments

theorem deferred_attached {env : Environment} {s : Session} {r : Request}
    (hd : s.defers env r = true) : s.link.isAttached = true := by
  simp only [defers, Bool.and_eq_true] at hd
  exact hd.1.2

variable (env : Environment) (s : Session)

@[simp] theorem outward_enter (phase : Phase) : outward (s.enter phase).2 = [] := by
  unfold enter
  split <;> simp

@[simp] theorem outward_announce : outward s.announceEnd.2 = s.farewell := by
  unfold announceEnd farewell
  split <;> simp

@[simp] theorem outward_forward (command : String) (arguments : Json) :
    outward (s.forward env command arguments).2 = s.writes env command arguments := by
  simp only [forward, send, writes]
  cases (s.link.send env.accepts command arguments).result <;> simp

theorem greet_transition (r : Request) (hr : r.command = "initialize") :
    Transition env s (.request r) (s.greet r).1 (outward (s.greet r).2) := by
  have h : Transition env s (.request r) _ _ := .greeted r hr
  by_cases hp : s.phase = .idle <;> simpa [greet, hp] using h

/-- A launch is refused, fails to spawn, or runs. -/
theorem launch_transition (r : Request) (hr : r.command = "launch") :
    Transition env s (.request r) (s.launch env r).1 (outward (s.launch env r).2) := by
  rw [launch_eq]
  cases hl : s.launchSpec r with
  | error e => exact Transition.refused r e hr hl
  | ok launched =>
    obtain ⟨program, spec⟩ := launched
    have hu : s.Unlaunched := launchSpec_unlaunched hl
    cases hspawn : env.spawn spec with
    | some failure =>
      simp only [hspawn]
      exact Transition.notStarted r program spec failure hr hu hl hspawn
    | none =>
      simp only [hspawn]
      exact Transition.started r program spec hr hu hl hspawn

theorem disconnect_transition (r : Request)
    (hr : r.command = "disconnect" ∨ r.command = "terminate") :
    Transition env s (.request r) (s.disconnect r).1 (outward (s.disconnect r).2) := by
  have he : outward (s.disconnect r).2 =
      (if s.hasProcess then [.stop] else []) ++ respond (.ok r none) :: s.farewell := by
    cases hp : s.hasProcess <;> by_cases ht : s.phase = .terminated <;>
      simp [disconnect, hp, ht, farewell, cutOff, releaseAll]
  rw [he, disconnect_session]
  exact .disconnected r hr

theorem stackTrace_transition (r : Request) (hr : r.command = "stackTrace") :
    Transition env s (.request r) (s.stackTrace env r).1 (outward (s.stackTrace env r).2) := by
  rcases s.link.send_cases env.accepts "stackTrace" (stackTraceArguments r) with
    ⟨ha, hacc, queue, _, hsend⟩ | ⟨_, hacc, queue, hsend⟩ | ⟨ha, hsend⟩
  · have h : Transition env s (.request r) _ _ := .deferred r (by simp [defers, hr, ha, hacc])
    simpa [stackTrace, send, hsend, registering, sending, writes] using h
  · have h : Transition env s (.request r) _ _ := .unasked r hr (by simp [defers, hacc])
    simpa [stackTrace, send, hsend, sending] using h
  · have h : Transition env s (.request r) _ _ := .unasked r hr (by simp [defers, ha])
    simpa [stackTrace, send, hsend, sending] using h

theorem obey_transition (r : Request) :
    Transition env s (.request r) (s.obey env r).1 (outward (s.obey env r).2) := by
  refine s.obey_cases env r ?greet ?launch ?disconnect ?breakpoints ?plain ?stackTrace ?threads
    ?unsupported
  case greet => exact s.greet_transition env r
  case launch => exact s.launch_transition env r
  case disconnect => exact s.disconnect_transition env r
  case breakpoints =>
    intro hr
    have he : outward (s.setBreakpoints env r).2 =
        s.writes env "setBreakpoints" (breakpointArguments r) ++ [respond (.ok r (some (.object
          [("breakpoints", .array ((requestedBreakpoints r).map verifiedBreakpoint))])))] := by
      simp [setBreakpoints, breakpointArguments]
    rw [he]
    exact Transition.breakpointsSet r hr
  case plain =>
    intro hr
    rw [outward_append, outward_forward]
    exact Transition.forwarded r hr
  case stackTrace => exact s.stackTrace_transition env r
  case threads => exact Transition.threadsNamed r
  case unsupported => exact Transition.notUnderstood r

theorem event_transition (name : String) (body : Json) :
    let outcome := { s with heard := true }.handleEvent name body
    Transition env s (.report (.record (.event name body))) outcome.1 (outward outcome.2) := by
  intro outcome
  simp only [outcome, handleEvent]
  split
  · subst name
    exact Transition.stopped body
  · split
    · subst name
      rw [outward_append, outward_enter, outward_announce, announce_session]
      exact Transition.ended body
    · split
      · subst name
        exact Transition.printed body
      · exact Transition.ignored name body (by simp_all)

theorem exit_transition (info : Debuggee.ExitInfo) :
    Transition env s (.report (.exited info)) (s.handleExit info).1
      (outward (s.handleExit info).2) := by
  have h : Transition env s _ _ _ := .exited info
  have he : s.cutOff.endAnnounced = s.endAnnounced := rfl
  cases ha : s.endAnnounced <;> cases hc : info.code <;>
    simpa [handleExit, ha, hc, he, finished, farewell] using h

/-- The handshake waits, is dropped, or writes its next command. -/
theorem handshake_transition :
    Transition env s .handshake (s.stepHandshake env).1 (outward (s.stepHandshake env).2) := by
  unfold stepHandshake
  split
  · exact .waited (by simp [handshakeDue, *])
  · exact .settling _ ‹_›
  · rename_i program deadline hh
    split
    · rename_i hdue
      have h := Transition.greetingSent program deadline hh hdue
      rcases s.link.send_cases env.accepts "initialize" (.record []) with
        ⟨ha, hacc, queue, _, hsend⟩ | ⟨_, hacc, queue, hsend⟩ | ⟨ha, hsend⟩
      all_goals simp only [send, sending, writes, hsend] at h ⊢
      · simpa [ha, hacc] using h
      · simpa [hacc] using h
      · simpa [ha] using h
    · rename_i hdue
      exact .waited (by simpa only [handshakeDue, hh] using hdue)
  · rename_i program deadline hh
    split
    · rename_i hdue
      rw [outward_forward]
      exact .launchSent program deadline hh hdue
    · rename_i hdue
      exact .waited (by simpa only [handshakeDue, hh] using hdue)

/-- Every move of a session follows one of the rules. -/
theorem step_transition (move : Move) :
    Transition env s move (s.step env move).1 (outward (s.step env move).2) := by
  cases move with
  | request r => exact s.obey_transition env r
  | report report =>
    rcases report with (⟨name, body⟩ | reply) | ⟨line, reason⟩ | info
    · exact s.event_transition env name body
    · exact Transition.replied reply
    · exact Transition.misread line reason
    · exact s.exit_transition env info
  | timer key generation => exact Transition.fired key generation
  | handshake => exact s.handshake_transition env
  | answer index =>
    have h : Transition env s _ _ _ := .answered index
    cases hc : s.released[index]? with
    | none =>
      have hlen := List.getElem?_eq_none_iff.mp hc
      simpa [step, answerReleased, hc, List.eraseIdx_of_length_le hlen] using h
    | some c => simpa [step, answerReleased, hc] using h
  | shutDown =>
    have he : outward (s.shutDown env).2 = (s.shutDown env).2 := by
      unfold Session.shutDown
      split <;> rfl
    rw [step, he]
    exact Transition.shutDown

end Session
end DebugAdapter
