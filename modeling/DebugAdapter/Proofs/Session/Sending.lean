import DebugAdapter.Proofs.Debuggee.Wire
import DebugAdapter.Proofs.Session.Transition

namespace DebugAdapter

open Frontend Debuggee

namespace Debuggee.Link

variable (l : Link) (accepts : Bool) (command : String) (arguments : Json)

/-- What a send writes and leaves queued is what was queued, then its own command, unless that is
dropped. -/
theorem send_order :
    let sending := l.send accepts command arguments
    sending.written ++ sending.link.queued = l.queued ∨
      sending.written ++ sending.link.queued =
        l.queued ++ [.make l.nextSeq command arguments] := by
  intro sending
  rcases l.transmit_cases (.ofBool accepts) (.ofBool accepts) command arguments with
    ⟨_, h⟩ | ⟨_, h⟩ | ⟨_, written, rest, h, hq⟩
  · have hsending : sending = ⟨.error .notAttached, [], l⟩ := h
    rw [hsending]
    exact Or.inl rfl
  · have hsending : sending = ⟨.ok l.nextSeq, l.queued ++ [.make l.nextSeq command arguments],
      ⟨l.nextSeq + 1, some {}⟩⟩ := h
    rw [hsending]
    exact Or.inr (List.append_nil _)
  · have hsending : sending = ⟨.error .brokenPipe, written, ⟨l.nextSeq + 1, some rest⟩⟩ := h
    rw [hsending]
    exact hq

/-- What is written or left queued was queued before, or is the command itself. -/
theorem send_origin {c : Command}
    (hc : c ∈ (l.send accepts command arguments).written ++
      (l.send accepts command arguments).link.queued) :
    c ∈ l.queued ∨ c = .make l.nextSeq command arguments := by
  rcases l.send_order accepts command arguments with ho | ho
  · exact Or.inl (ho ▸ hc)
  · rw [ho, List.mem_append, List.mem_singleton] at hc
    exact hc

/-- A sink that takes all gets what was queued and the command, and nothing stays behind. -/
theorem send_through (ha : l.isAttached = true) :
    (l.send true command arguments).written = l.queued ++ [.make l.nextSeq command arguments] ∧
      (l.send true command arguments).link.queued = [] := by
  rcases l.send_cases true command arguments with ⟨_, _, queue, hs, h⟩ | ⟨_, hacc, _⟩ | ⟨hd, _⟩
  · rw [h]
    exact ⟨by simp [queued, hs], rfl⟩
  · simp at hacc
  · simp [ha] at hd

/-- Without a sink that takes it nothing is written. -/
theorem send_unheard (hu : (l.isAttached && accepts) = false) :
    (l.send accepts command arguments).written = [] := by
  rcases l.send_cases accepts command arguments with ⟨ha, hacc, _⟩ | ⟨_, _, _, h⟩ | ⟨_, h⟩
  · simp [ha, hacc] at hu
  · rw [h]
  · rw [h]

end Debuggee.Link

namespace Session

open Effect

def forwarded? (r : Request) : Option (String × Json) :=
  if r.command = "setBreakpoints" then some (r.command, breakpointArguments r)
  else if r.command ∈ plainCommands then some (r.command, .record [])
  else if r.command = "stackTrace" then some (r.command, stackTraceArguments r)
  else none

/-- What the handshake sends if it can go on. -/
def greeting? (env : Environment) (s : Session) : Option (String × Json) :=
  match s.handshake with
  | some (.settling _ deadline) =>
    if s.heard ∨ deadline ≤ env.now then some ("initialize", .record []) else none
  | some (.acknowledging program deadline) =>
    if s.acknowledged ∨ deadline ≤ env.now then
      some ("launch", .object [("program", .string program)])
    else none
  | _ => none

def dispatched? (env : Environment) (s : Session) : Move → Option (String × Json)
  | .request r => forwarded? r
  | .handshake => s.greeting? env
  | _ => none

variable {env : Environment} {s t : Session} {move : Move} {es fs : List Effect}

theorem commands_writes (env : Environment) (s : Session) (command : String) (arguments : Json) :
    commands (s.writes env command arguments) =
      (s.link.send env.accepts command arguments).written := by
  rw [commands, writes, List.filterMap_map]
  exact List.filterMap_some

theorem commands_writes_respond (env : Environment) (s : Session) (command : String)
    (arguments : Json) (r : Response) :
    commands (s.writes env command arguments ++ [respond r]) =
      (s.link.send env.accepts command arguments).written := by
  rw [commands_picks.append, commands_writes]
  exact List.append_nil _

theorem forwarded_of_command {r : Request} (hr : r.command ≠ "setBreakpoints")
    (hp : r.command ∉ plainCommands) (ht : r.command ≠ "stackTrace") : forwarded? r = none := by
  simp [forwarded?, hr, hp, ht]

theorem not_forwarded {r : Request} (hr : r.command ∈ ["initialize", "launch", "disconnect",
    "terminate", "threads"]) : forwarded? r = none := by
  simp only [List.mem_cons, List.not_mem_nil, or_false] at hr
  rcases hr with hr | hr | hr | hr | hr <;> simp [forwarded?, hr, plainCommands]

/-- A request is passed on under its own name. -/
theorem forwarded_command {r : Request} {command : String} {arguments : Json}
    (hf : forwarded? r = some (command, arguments)) : command = r.command := by
  unfold forwarded? at hf
  split at hf
  · cases hf
    rfl
  · split at hf
    · cases hf
      rfl
    · split at hf <;> cases hf
      rfl

/-- The handshake sends nothing as long as it has to wait. -/
theorem greeting_waits (hw : ¬ s.handshakeDue env) : s.greeting? env = none := by
  unfold handshakeDue at hw
  unfold greeting?
  cases hh : s.handshake with
  | none => rfl
  | some handshake =>
    cases handshake with
    | starting program => simp [hh] at hw
    | settling program deadline => simpa [hh] using hw
    | acknowledging program deadline => simpa [hh] using hw

/-- A move sends its command over the link, or it sends nothing: then it leaves the link as it is,
drops its sink, or attaches the sink of a debuggee that it has started. -/
theorem Transition.link_cases (h : Transition env s move t es) :
    (∃ command arguments, s.dispatched? env move = some (command, arguments) ∧
      t.link = (s.sending env command arguments).link ∧
      commands es = (s.link.send env.accepts command arguments).written) ∨
    (s.dispatched? env move = none ∧ commands es = [] ∧
      (t.link = s.link ∨ t.link = s.link.detach ∨ s.Unlaunched ∧ t.link = s.link.attach)) := by
  cases h with
  | greeted r hr | refused r e hr | threadsNamed r hr =>
    exact Or.inr ⟨not_forwarded (by simp [hr]), rfl, Or.inl rfl⟩
  | notStarted r program spec failure hr =>
    exact Or.inr ⟨not_forwarded (by simp [hr]), rfl, Or.inl rfl⟩
  | started r program spec hr hu =>
    exact Or.inr ⟨not_forwarded (by simp [hr]), rfl, Or.inr (Or.inr ⟨hu, rfl⟩)⟩
  | disconnected r hr =>
    refine Or.inr ⟨not_forwarded (by rcases hr with hr | hr <;> simp [hr]), ?_, Or.inr (Or.inl rfl)⟩
    rw [commands_picks.append]
    split <;> exact pick_farewell commands_picks rfl s
  | breakpointsSet r hr =>
    exact Or.inl ⟨_, _, by simp [dispatched?, forwarded?, hr], rfl, commands_writes_respond ..⟩
  | forwarded r hr =>
    have hb : r.command ≠ "setBreakpoints" := by
      intro hb
      simp [hb, plainCommands] at hr
    exact Or.inl ⟨_, _, by simp [dispatched?, forwarded?, hr, hb], rfl,
      commands_writes_respond ..⟩
  | unasked r hr hd =>
    refine Or.inl ⟨_, _, by simp [dispatched?, forwarded?, hr, plainCommands], rfl, ?_⟩
    rw [s.link.send_unheard _ _ _ (by simpa [defers, hr] using hd)]
    rfl
  | deferred r hd =>
    have hr := s.defers_command env hd
    exact Or.inl ⟨_, _, by simp [dispatched?, forwarded?, hr, plainCommands], rfl,
      commands_writes ..⟩
  | notUnderstood r hr =>
    refine Or.inr ⟨?_, rfl, Or.inl rfl⟩
    simp only [List.mem_append, List.mem_cons, List.not_mem_nil, or_false, not_or] at hr
    exact forwarded_of_command hr.1.2.2.2.2.1 hr.2 hr.1.2.2.2.2.2.1
  | exited info =>
    refine Or.inr ⟨rfl, ?_, Or.inr (Or.inl rfl)⟩
    cases s.endAnnounced <;> cases info.code <;> rfl
  | shutDown =>
    refine Or.inr ⟨rfl, ?_, Or.inr (Or.inl rfl)⟩
    split <;> rfl
  | ended body => exact Or.inr ⟨rfl, pick_farewell commands_picks rfl s, Or.inl rfl⟩
  | waited hw => exact Or.inr ⟨greeting_waits hw, rfl, Or.inl rfl⟩
  | settling program hh => exact Or.inr ⟨by simp [dispatched?, greeting?, hh], rfl, Or.inl rfl⟩
  | greetingSent program deadline hh hdue =>
    exact Or.inl ⟨_, _, by simp [dispatched?, greeting?, hh, hdue], rfl, commands_writes ..⟩
  | launchSent program deadline hh hdue =>
    exact Or.inl ⟨_, _, by simp [dispatched?, greeting?, hh, hdue], rfl, commands_writes ..⟩
  | answered index =>
    refine Or.inr ⟨rfl, ?_, Or.inl rfl⟩
    cases s.released[index]? <;> rfl
  | _ => exact Or.inr ⟨rfl, rfl, Or.inl rfl⟩

/-- What is written was queued, or is what the move sends. -/
theorem Transition.written_origin (h : Transition env s move t es) {c : Command}
    (hc : c ∈ commands es) : c ∈ s.link.queued ∨ ∃ command arguments,
      s.dispatched? env move = some (command, arguments) ∧
      c = .make s.link.nextSeq command arguments := by
  rcases h.link_cases with ⟨command, arguments, hd, _, hw⟩ | ⟨_, hw, _⟩
  · rw [hw] at hc
    rcases s.link.send_origin _ _ _ (List.mem_append_left _ hc) with hq | hown
    · exact Or.inl hq
    · exact Or.inr ⟨command, arguments, hd, hown⟩
  · simp [hw] at hc

/-- So is what stays queued. -/
theorem Transition.queued_origin (h : Transition env s move t es) {c : Command}
    (hc : c ∈ t.link.queued) : c ∈ s.link.queued ∨ ∃ command arguments,
      s.dispatched? env move = some (command, arguments) ∧
      c = .make s.link.nextSeq command arguments := by
  rcases h.link_cases with ⟨command, arguments, hd, hl, _⟩ | ⟨_, _, hl | hl | ⟨_, hl⟩⟩
  · rw [hl] at hc
    rcases s.link.send_origin _ _ _ (List.mem_append_right _ hc) with hq | hown
    · exact Or.inl hq
    · exact Or.inr ⟨command, arguments, hd, hown⟩
  · exact Or.inl (hl ▸ hc)
  · simp [hl, Link.detach, Link.queued] at hc
  · simp [hl, Link.attach, Link.queued] at hc

end Session
end DebugAdapter
