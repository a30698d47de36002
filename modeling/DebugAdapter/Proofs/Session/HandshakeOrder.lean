import DebugAdapter.Proofs.Session.Greetings
import DebugAdapter.Proofs.Session.Phases

namespace DebugAdapter.Session

open Frontend Effect Debuggee

namespace Happening

def accepted? (h : Happening) : Option String :=
  h.move.accepted? h.effects

def Begins (h : Happening) : Prop :=
  h.move = .handshake ∧ ∃ program, h.session.handshake = some (.starting program)

def Hears (h : Happening) : Prop :=
  ∃ record, h.move = .report (.record record)

def Acknowledges (h : Happening) : Prop :=
  ∃ r : Reply, h.move = .report (.record (.reply r)) ∧ r.command = "initialize"

def Greets (h : Happening) : Prop :=
  ∃ c ∈ commands h.effects, c.command = "initialize"

/-- The handshake sends `initialize`, and that fails. -/
def FailsToGreet (h : Happening) : Prop :=
  h.move = .handshake ∧ ∃ arguments e, h.session.greeting? h.env = some ("initialize", arguments) ∧
    (h.session.send h.env "initialize" arguments).1 = .error e

end Happening

def accepted (past : List Happening) : List String :=
  past.filterMap Happening.accepted?

/-- So much time has passed since something of a kind happened. -/
def Elapsed (delay : Nat) (kind : Happening → Prop) (past : List Happening) : Prop :=
  ∃ before h after, past = before ++ h :: after ∧ kind h ∧
    ∃ g ∈ after, h.env.now + delay ≤ g.env.now

def Settled (config : Config) (past : List Happening) : Prop :=
  (∃ h ∈ past, h.Hears) ∨ Elapsed config.settleDelay Happening.Begins past

def Answered (config : Config) (past : List Happening) : Prop :=
  (∃ h ∈ past, h.Acknowledges) ∨ Elapsed config.launchDelay Happening.Greets past

variable {env : Environment} {s t : Session} {move : Move} {es : List Effect}
  {config : Config} {past : List Happening}

section Histories

variable {h : Happening}

theorem sent_snoc : sent (past ++ [h]) = sent past ++ commands h.effects := by
  rw [sent_append]
  simp [sent]

theorem accepted_snoc : accepted (past ++ [h]) = accepted past ++ h.accepted?.toList := by
  cases ha : h.accepted? <;> simp [accepted, ha]

theorem Elapsed.grow {delay : Nat} {kind : Happening → Prop} (he : Elapsed delay kind past)
    (h : Happening) : Elapsed delay kind (past ++ [h]) := by
  obtain ⟨before, since, after, rfl, hkind, g, hg, htime⟩ := he
  exact ⟨before, since, after ++ [h], by simp, hkind, g, List.mem_append_left _ hg, htime⟩

theorem elapsed_now {delay : Nat} {kind : Happening → Prop} {since : Happening}
    (hin : since ∈ past) (hkind : kind since) (htime : since.env.now + delay ≤ h.env.now) :
    Elapsed delay kind (past ++ [h]) := by
  obtain ⟨before, after, rfl⟩ := List.mem_iff_append.mp hin
  exact ⟨before, since, after ++ [h], by simp, hkind, h, List.mem_append_right _ (by simp), htime⟩

theorem exists_grow {kind : Happening → Prop} (he : ∃ g ∈ past, kind g) (h : Happening) :
    ∃ g ∈ past ++ [h], kind g := by
  obtain ⟨g, hg, hkind⟩ := he
  exact ⟨g, List.mem_append_left _ hg, hkind⟩

theorem Settled.grow (hs : Settled config past) (h : Happening) :
    Settled config (past ++ [h]) :=
  hs.imp (exists_grow · h) (·.grow h)

theorem Answered.grow (ha : Answered config past) (h : Happening) :
    Answered config (past ++ [h]) :=
  ha.imp (exists_grow · h) (·.grow h)

end Histories

theorem Transition.unlaunched (h : Transition env s move t es) (ht : t.Unlaunched) :
    s.Unlaunched := by
  have hrank := h.advances.forward
  rcases ht with ht | ht <;> rw [ht] at hrank <;>
    cases hs : s.phase <;> simp_all [Phase.rank, Unlaunched]

theorem Transition.config_eq (h : Transition env s move t es) : t.config = s.config := by
  cases h <;> rfl

theorem Transition.heard (h : Transition env s move t es) (ht : t.heard = true) :
    s.heard = true ∨ ∃ record, move = .report (.record record) := by
  cases h with
  | stopped | ended | printed | ignored | replied => exact Or.inr ⟨_, rfl⟩
  | _ => exact Or.inl ht

theorem Transition.acknowledged (h : Transition env s move t es) (ht : t.acknowledged = true) :
    s.acknowledged = true ∨
      ∃ r : Reply, move = .report (.record (.reply r)) ∧ r.command = "initialize" := by
  cases h with
  | replied r =>
    have ht : (s.acknowledged || decide (r.command = "initialize")) = true := ht
    rw [Bool.or_eq_true, decide_eq_true_eq] at ht
    exact ht.imp_right fun hr => ⟨r, rfl, hr⟩
  | _ => exact Or.inl ht

/-- The wait for the first word of the debuggee begins with the handshake. -/
theorem Transition.settling_origin (h : Transition env s move t es) {program : String}
    {deadline : Nat} (ht : t.handshake = some (.settling program deadline)) :
    s.handshake = some (.settling program deadline) ∨
      (move = .handshake ∧ s.handshake = some (.starting program) ∧
        deadline = env.now + s.config.settleDelay) := by
  cases h with
  | settling program' hh =>
    simp only [Option.some.injEq, Handshake.settling.injEq] at ht
    exact Or.inr ⟨rfl, ht.1 ▸ hh, ht.2.symm⟩
  | greetingSent program' deadline' hh =>
    simp only at ht
    split at ht <;> simp at ht
  | started | disconnected | exited | launchSent | shutDown => cases ht
  | _ => exact Or.inl ht

/-- The wait for the answer to `initialize` begins when that is written. -/
theorem Transition.acknowledging_origin (h : Transition env s move t es) {program : String}
    {deadline : Nat} (ht : t.handshake = some (.acknowledging program deadline)) :
    s.handshake = some (.acknowledging program deadline) ∨
      ((∃ c ∈ commands es, c.command = "initialize") ∧
        deadline = env.now + s.config.launchDelay) := by
  cases h with
  | greetingSent program' deadline' hh =>
    right
    simp only at ht
    split at ht
    · rename_i hthrough
      obtain ⟨ha, hacc⟩ := Bool.and_eq_true_iff.mp hthrough
      obtain ⟨hw, _⟩ := s.link.send_through "initialize" (.record []) ha
      simp only [Option.some.injEq, Handshake.acknowledging.injEq] at ht
      refine ⟨⟨.make s.link.nextSeq "initialize" (.record []), ?_, rfl⟩, ht.2.symm⟩
      rw [commands_writes, hacc, hw]
      exact List.mem_append_right _ List.mem_cons_self
    · cases ht
  | settling => cases ht
  | started | disconnected | exited | launchSent | shutDown => cases ht
  | _ => exact Or.inl ht

/-- Only the handshake sends its commands. -/
theorem dispatched_greeting {command : String} {arguments : Json}
    (hd : s.dispatched? env move = some (command, arguments))
    (hc : command = "initialize" ∨ command = "launch") :
    move = .handshake ∧ s.greeting? env = some (command, arguments) := by
  cases move with
  | handshake => exact ⟨rfl, hd⟩
  | request r =>
    have hf : forwarded? r = some (command, arguments) := hd
    have hnone : forwarded? r = none := by
      refine not_forwarded ?_
      rw [← forwarded_command hf]
      rcases hc with hc | hc <;> simp [hc]
    rw [hnone] at hf
    cases hf
  | _ => cases hd

theorem greeting_initialize {arguments : Json}
    (hg : s.greeting? env = some ("initialize", arguments)) :
    arguments = .record [] ∧ ∃ program deadline,
      s.handshake = some (.settling program deadline) ∧ (s.heard ∨ deadline ≤ env.now) := by
  unfold greeting? at hg
  split at hg
  · rename_i program deadline hh
    split at hg
    · cases hg
      exact ⟨rfl, program, deadline, hh, ‹_›⟩
    · cases hg
  · split at hg <;> simp at hg
  · cases hg

theorem greeting_launch {arguments : Json} (hg : s.greeting? env = some ("launch", arguments)) :
    ∃ program deadline,
      s.handshake = some (.acknowledging program deadline) ∧
        (s.acknowledged ∨ deadline ≤ env.now) := by
  unfold greeting? at hg
  split at hg
  · split at hg <;> simp at hg
  · rename_i program deadline hh
    split at hg
    · exact ⟨program, deadline, hh, ‹_›⟩
    · cases hg
  · cases hg

/-- What was written of the handshake and what is due of it is what one accepted launch asks for. -/
structure Ordered (past : List Happening) (s : Session) : Prop where
  order : greetings (sent past) ++ s.due <+: (accepted past).flatMap Handshake.script
  unlaunched : s.Unlaunched → accepted past = []
  once : (accepted past).length ≤ 1

/-- What is written of the handshake is what is next in its script. -/
theorem step_ordered (ho : Ordered past s) (env : Environment) (move : Move) :
    Ordered (past ++ [⟨s, env, move⟩]) (s.step env move).1 := by
  have h := s.step_transition env move
  have hdue := h.due_cases
  rw [accepted_outward, pick_outward commands_picks] at hdue
  rcases hdue with ⟨hnone, hfront⟩ | ⟨program, hsome, hu, hlaunched, hsilent, hscript⟩
  · have haccepted : accepted (past ++ [⟨s, env, move⟩]) = accepted past := by
      rw [accepted_snoc, Happening.accepted?, Happening.effects, hnone]
      exact List.append_nil _
    refine ⟨?_, fun ht => ?_, haccepted ▸ ho.once⟩
    · rw [haccepted, sent_snoc, greetings_append, List.append_assoc]
      exact ((List.prefix_append_right_inj _).mpr hfront).trans ho.order
    · rw [haccepted]
      exact ho.unlaunched (h.unlaunched ht)
  · have haccepted : accepted (past ++ [⟨s, env, move⟩]) = [program] := by
      rw [accepted_snoc, ho.unlaunched hu, Happening.accepted?, Happening.effects, hsome]
      rfl
    -- Before the first launch nothing of a handshake was written.
    have hbefore : greetings (sent past) = [] := by
      have hempty := ho.order
      rw [ho.unlaunched hu] at hempty
      exact (List.append_eq_nil_iff.mp (List.prefix_nil.mp hempty)).1
    refine ⟨?_, fun ht => absurd ht hlaunched, by simp [haccepted]⟩
    have hs : greetings (sent (past ++ [⟨s, env, move⟩])) = [] := by
      rw [sent_snoc, greetings_append, hbefore, Happening.effects, hsilent]
      rfl
    rw [haccepted, hs, hscript]
    exact (List.append_nil (Handshake.script program)).symm ▸ List.prefix_rfl

/-- What the marks, the deadlines and the queue of a session say about its past. -/
structure Tracked (config : Config) (past : List Happening) (s : Session) : Prop where
  config_eq : s.config = config
  heard : s.heard = true → ∃ h ∈ past, h.Hears
  acknowledged : s.acknowledged = true → ∃ h ∈ past, h.Acknowledges
  settling : ∀ program deadline, s.handshake = some (.settling program deadline) →
    ∃ h ∈ past, h.Begins ∧ deadline = h.env.now + config.settleDelay
  acknowledging : ∀ program deadline, s.handshake = some (.acknowledging program deadline) →
    ∃ h ∈ past, h.Greets ∧ deadline = h.env.now + config.launchDelay
  queued : ∀ c ∈ s.link.queued, (c.command = "initialize" → Settled config past) ∧
    (c.command = "launch" → Answered config past)

/-- `initialize` is sent when its wait is over. -/
theorem Tracked.settled (ht : Tracked config past s) {arguments : Json}
    (hg : s.greeting? env = some ("initialize", arguments)) (move : Move) :
    Settled config (past ++ [⟨s, env, move⟩]) := by
  obtain ⟨_, program, deadline, hh, hheard | htime⟩ := greeting_initialize hg
  · exact Or.inl (exists_grow (ht.heard hheard) _)
  · obtain ⟨since, hin, hbegins, rfl⟩ := ht.settling program deadline hh
    exact Or.inr (elapsed_now hin hbegins htime)

/-- And so is `launch`. -/
theorem Tracked.answered (ht : Tracked config past s) {arguments : Json}
    (hg : s.greeting? env = some ("launch", arguments)) (move : Move) :
    Answered config (past ++ [⟨s, env, move⟩]) := by
  obtain ⟨program, deadline, hh, hacknowledged | htime⟩ := greeting_launch hg
  · exact Or.inl (exists_grow (ht.acknowledged hacknowledged) _)
  · obtain ⟨since, hin, hgreets, rfl⟩ := ht.acknowledging program deadline hh
    exact Or.inr (elapsed_now hin hgreets htime)

/-- What a move writes or queues has waited long enough. -/
theorem Tracked.waited (ht : Tracked config past s) {c : Command}
    (hc : c ∈ s.link.queued ∨ ∃ command arguments,
      s.dispatched? env move = some (command, arguments) ∧
      c = .make s.link.nextSeq command arguments) :
    (c.command = "initialize" → Settled config (past ++ [⟨s, env, move⟩])) ∧
      (c.command = "launch" → Answered config (past ++ [⟨s, env, move⟩])) := by
  rcases hc with hqueued | ⟨command, arguments, hd, rfl⟩
  · obtain ⟨hi, hl⟩ := ht.queued c hqueued
    exact ⟨fun hc => (hi hc).grow _, fun hc => (hl hc).grow _⟩
  · constructor
    · rintro rfl
      exact ht.settled (dispatched_greeting hd (Or.inl rfl)).2 move
    · rintro rfl
      exact ht.answered (dispatched_greeting hd (Or.inr rfl)).2 move

/-- The marks and the deadlines are set by what happens, and not moved. -/
theorem step_tracked (ht : Tracked config past s) (env : Environment) (move : Move) :
    Tracked config (past ++ [⟨s, env, move⟩]) (s.step env move).1 := by
  have h := s.step_transition env move
  have hnow : (⟨s, env, move⟩ : Happening) ∈ past ++ [⟨s, env, move⟩] :=
    List.mem_append_right _ List.mem_cons_self
  refine ⟨h.config_eq.trans ht.config_eq, ?_, ?_, ?_, ?_, ?_⟩
  · intro hheard
    rcases h.heard hheard with hold | ⟨record, hmove⟩
    · exact exists_grow (ht.heard hold) _
    · exact ⟨_, hnow, record, hmove⟩
  · intro hacknowledged
    rcases h.acknowledged hacknowledged with hold | hnew
    · exact exists_grow (ht.acknowledged hold) _
    · exact ⟨_, hnow, hnew⟩
  · intro program deadline hh
    rcases h.settling_origin hh with hold | ⟨hmove, hstarting, hdeadline⟩
    · exact exists_grow (ht.settling program deadline hold) _
    · exact ⟨_, hnow, ⟨hmove, program, hstarting⟩, ht.config_eq ▸ hdeadline⟩
  · intro program deadline hh
    rcases h.acknowledging_origin hh with hold | ⟨⟨c, hc, hname⟩, hdeadline⟩
    · exact exists_grow (ht.acknowledging program deadline hold) _
    · rw [pick_outward commands_picks] at hc
      exact ⟨_, hnow, ⟨c, hc, hname⟩, ht.config_eq ▸ hdeadline⟩
  · intro c hc
    exact ht.waited (h.queued_origin hc)

/-- A command of the handshake is written after a launch was accepted, and when its wait is over. -/
def InTurn (config : Config) (past : List Happening) (h : Happening) : Prop :=
  ∀ c ∈ commands h.effects, (c.command = "initialize" ∨ c.command = "launch") →
    accepted past ≠ [] ∧
      (c.command = "initialize" → Settled config (past ++ [h])) ∧
      (c.command = "launch" → Answered config (past ++ [h]))

theorem tracked_in_turn {h : Happening} (ho : Ordered past h.session)
    (ht : Tracked config past h.session) : InTurn config past h := by
  obtain ⟨s, env, move⟩ := h
  have hstep := s.step_transition env move
  intro c hc hname
  rw [Happening.effects, ← pick_outward commands_picks] at hc
  refine ⟨fun hempty => ?_, ht.waited (hstep.written_origin hc)⟩
  -- Before a launch is accepted nothing is due, so nothing of a handshake can be written.
  have horder := ho.order
  rw [hempty] at horder
  have hnone : s.due = [] := (List.append_eq_nil_iff.mp (List.prefix_nil.mp horder)).2
  have hin := mem_greetings hc hname
  rcases hstep.due_cases with ⟨_, hfront⟩ | ⟨_, _, _, _, hsilent, _⟩
  · rw [hnone, List.prefix_nil, List.append_eq_nil_iff] at hfront
    rw [hfront.1] at hin
    cases hin
  · rw [hsilent] at hc
    cases hc

/-- Once `initialize` has failed `launch` was not written and will not be. -/
def GivenUp (past : List Happening) (s : Session) : Prop :=
  (∃ h ∈ past, h.FailsToGreet) →
    ¬ s.Unlaunched ∧ ∀ g ∈ greetings (sent past) ++ s.due, g.1 ≠ "launch"

/-- A handshake whose `initialize` fails is over, and nothing but that may still be written of it. -/
theorem Transition.greeting_failed (h : Transition env s .handshake t es) {program : String}
    {deadline : Nat} (hh : s.handshake = some (.settling program deadline))
    (hdue : s.heard ∨ deadline ≤ env.now) (hfail : (s.link.isAttached && env.accepts) = false) :
    greetings (commands es) ++ t.due <+:
      greetings s.link.queued ++ [("initialize", .record [])] := by
  cases h with
  | greetingSent program' deadline' =>
    have hsent := sent_greeting s.link env.accepts "initialize" (.record [])
    simpa [due, hfail, sending] using commands_writes env s "initialize" (.record []) ▸ hsent
  | waited hw => exact absurd (by simpa [handshakeDue, hh] using hdue) hw
  | settling program' hother => cases hh.symm.trans hother
  | launchSent program' deadline' hother => cases hh.symm.trans hother

theorem send_fails {command : String} {arguments : Json} {e : SendError}
    (he : (s.send env command arguments).1 = .error e) :
    (s.link.isAttached && env.accepts) = false := by
  have hresult : (s.link.send env.accepts command arguments).result = .error e := he
  rcases s.link.send_cases env.accepts command arguments with ⟨_, _, _, _, h⟩ | ⟨_, hacc, _⟩ | ⟨ha, _⟩
  · rw [h] at hresult
    cases hresult
  · rw [hacc, Bool.and_false]
  · rw [ha, Bool.false_and]

/-- As long as the handshake has not sent anything nothing of it was written and nothing of it is
queued. -/
theorem Ordered.unsent (ho : Ordered past s) {program : String} {deadline : Nat}
    (hh : s.handshake = some (.settling program deadline)) :
    ¬ s.Unlaunched ∧ greetings (sent past) = [] ∧ greetings s.link.queued = [] := by
  have horder := ho.order
  have hdue : s.due = greetings s.link.queued ++ Handshake.script program := by
    rw [due, hh]
    rfl
  rw [hdue] at horder
  -- There are but two commands for the one launch, and both are still to be sent.
  have hlength := horder.length_le
  have honce := ho.once
  rcases ha : accepted past with _ | ⟨other, _ | ⟨another, others⟩⟩
  · simp [ha, Handshake.script] at hlength
  · refine ⟨fun hu => by simp [ho.unlaunched hu] at ha, ?_⟩
    simp only [ha, List.flatMap_cons, List.flatMap_nil, List.append_nil, List.length_append,
      Handshake.script, List.length_cons, List.length_nil] at hlength
    exact ⟨List.length_eq_zero_iff.mp (by omega), List.length_eq_zero_iff.mp (by omega)⟩
  · simp [ha] at honce

/-- A launch that was given up is not taken up again. -/
theorem step_givenUp (ho : Ordered past s) (hg : GivenUp past s) (env : Environment)
    (move : Move) : GivenUp (past ++ [⟨s, env, move⟩]) (s.step env move).1 := by
  have h := s.step_transition env move
  rintro ⟨f, hf, hfails⟩
  rw [sent_snoc, greetings_append, List.append_assoc, Happening.effects,
    ← pick_outward commands_picks]
  rcases List.mem_append.mp hf with hold | hnow
  · obtain ⟨hlaunched, hnone⟩ := hg ⟨f, hold, hfails⟩
    refine ⟨fun ht => hlaunched (h.unlaunched ht), ?_⟩
    rcases h.due_cases with ⟨_, hfront⟩ | ⟨_, _, hu, _⟩
    · intro g hin
      exact hnone g (((List.prefix_append_right_inj _).mpr hfront).subset hin)
    · exact absurd hu hlaunched
  · obtain rfl := List.mem_singleton.mp hnow
    obtain ⟨hmove, arguments, e, hgreeting, herror⟩ := hfails
    obtain ⟨_, program, deadline, hh, hdue⟩ := greeting_initialize hgreeting
    obtain ⟨hlaunched, hwritten, hqueued⟩ := ho.unsent hh
    have hmove : move = .handshake := hmove
    subst hmove
    refine ⟨fun ht => hlaunched (h.unlaunched ht), ?_⟩
    have hlast := h.greeting_failed hh hdue (send_fails herror)
    rw [hqueued] at hlast
    intro g hin
    rw [hwritten] at hin
    have hname := List.mem_singleton.mp (hlast.subset hin)
    simp [hname]

/-- The order, the waits and the giving up hold throughout every course. -/
theorem run_handshake (config : Config) (roots : List String) (course : Course) :
    let hist := (start config roots).history course
    let last := (start config roots).after course
    Ordered hist last ∧ Tracked config hist last ∧ GivenUp hist last := by
  refine history_induction (P := fun past s =>
    Ordered past s ∧ Tracked config past s ∧ GivenUp past s) ⟨?_, ?_, ?_⟩ ?_ course
  · exact ⟨List.prefix_rfl, fun _ => rfl, Nat.zero_le _⟩
  · exact ⟨rfl, nofun, nofun, nofun, nofun, nofun⟩
  · exact fun ⟨_, hf, _⟩ => absurd hf List.not_mem_nil
  · rintro past s env move ⟨ho, ht, hg⟩
    exact ⟨step_ordered ho env move, step_tracked ht env move, step_givenUp ho hg env move⟩

/-- At most one launch is accepted, and what is written of the handshake is a beginning of what that
asks for: `initialize`, then `launch` with its program. Each is written after the launch was
accepted and when its wait is over, and once `initialize` has failed `launch` is never written. -/
theorem handshake_in_order (config : Config) (roots : List String) (course : Course) :
    let s := start config roots
    let hist := s.history course
    (accepted hist).length ≤ 1 ∧
    greetings (commands (s.effects course)) <+: (accepted hist).flatMap Handshake.script ∧
    Throughout (InTurn config) hist ∧
    ((∃ h ∈ hist, h.FailsToGreet) →
      ∀ c ∈ commands (s.effects course), c.command ≠ "launch") := by
  intro s hist
  obtain ⟨ho, _, hg⟩ := run_handshake config roots course
  rw [s.effects_history course]
  refine ⟨ho.once, ?_, ?_, ?_⟩
  · exact (List.prefix_append ..).trans ho.order
  · intro before h after hs
    obtain ⟨first, hbefore, hsession⟩ := history_split hs
    obtain ⟨hordered, htracked, _⟩ := run_handshake config roots first
    rw [← hbefore]
    exact tracked_in_turn (hsession ▸ hordered) (hsession ▸ htracked)
  · intro hfails c hc hname
    have hin := mem_greetings hc (Or.inr hname)
    exact (hg hfails).2 _ (List.mem_append_left _ hin) hname

example : greetings (commands ((start {} ["/w"]).effects tracing)) = Handshake.script "/w/a" := rfl

/-- The debuggee does not take `initialize` when it is sent, but later, when it is told to go on. -/
def greetedInVain : Course :=
  tracing.take 2 ++ [({ willing 500 with accepts := false }, .handshake), (willing 600, .handshake),
    (willing 700, .request { seq := 2, command := "next" })]

theorem greeted_in_vain_not_launched :
    let s := start {} ["/w"]
    (∃ h ∈ s.history greetedInVain, h.FailsToGreet) ∧
      ∀ c ∈ commands (s.effects greetedInVain), c.command ≠ "launch" := by
  intro s
  have hfails : ∃ h ∈ s.history greetedInVain, h.FailsToGreet := by
    refine ⟨⟨s.after (greetedInVain.take 2), { willing 500 with accepts := false }, .handshake⟩,
      ?_, rfl, .record [], .brokenPipe, rfl, rfl⟩
    exact List.mem_append_right (s.history (greetedInVain.take 2)) List.mem_cons_self
  exact ⟨hfails, (handshake_in_order {} ["/w"] greetedInVain).2.2.2 hfails⟩

end DebugAdapter.Session
