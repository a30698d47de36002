import DebugAdapter.Proofs.Session.Responses
import DebugAdapter.Proofs.Session.Sending

namespace DebugAdapter

open Frontend Effect Debuggee

def Handshake.script (program : String) : List (String × Json) :=
  [("initialize", .record []), ("launch", .object [("program", .string program)])]

/-- What a handshake has not sent yet. -/
def Handshake.unsent : Handshake → List (String × Json)
  | starting program | settling program _ => script program
  | acknowledging program _ => (script program).tail

namespace Session

def greetings (cs : List Command) : List (String × Json) :=
  (cs.filter fun c => c.command = "initialize" ∨ c.command = "launch").map
    fun c => (c.command, c.arguments)

/-- What can still be written of the handshake: what is queued, and what was not sent yet. -/
def due (s : Session) : List (String × Json) :=
  greetings s.link.queued ++ (s.handshake.map Handshake.unsent).getD []

/-- The program of a launch request that is answered with success by `es`. -/
def Move.accepted? (es : List Effect) : Move → Option String
  | .request r =>
    if r.command = "launch" ∧ (responses es).any (·.success) then program? r else none
  | _ => none

variable {env : Environment} {s t : Session} {move : Move} {es : List Effect}

section Greetings

variable {cs ds : List Command}

theorem greetings_append : greetings (cs ++ ds) = greetings cs ++ greetings ds := by
  simp [greetings]

theorem greetings_other {c : Command} (hi : c.command ≠ "initialize") (hl : c.command ≠ "launch") :
    greetings [c] = [] := by
  simp [greetings, hi, hl]

theorem mem_greetings {c : Command} (hc : c ∈ cs)
    (hg : c.command = "initialize" ∨ c.command = "launch") :
    (c.command, c.arguments) ∈ greetings cs :=
  List.mem_map.mpr ⟨c, List.mem_filter.mpr ⟨hc, by simpa using hg⟩, rfl⟩

end Greetings

/-- What is no command of the handshake leaves all of it to be written. -/
theorem sent_greetings (l : Link) (accepts : Bool) (command : String) (arguments : Json)
    (hi : command ≠ "initialize") (hl : command ≠ "launch") :
    greetings (l.send accepts command arguments).written ++
      greetings (l.send accepts command arguments).link.queued = greetings l.queued := by
  rw [← greetings_append]
  rcases l.send_order accepts command arguments with ho | ho
  · rw [ho]
  · rw [ho, greetings_append, greetings_other hi hl, List.append_nil]

/-- A command of the handshake is written or queued behind what is queued, or it is dropped. -/
theorem sent_greeting (l : Link) (accepts : Bool) (command : String) (arguments : Json) :
    greetings (l.send accepts command arguments).written ++
      greetings (l.send accepts command arguments).link.queued <+:
        greetings l.queued ++ greetings [.make l.nextSeq command arguments] := by
  rw [← greetings_append]
  rcases l.send_order accepts command arguments with ho | ho
  · rw [ho]
    exact List.prefix_append ..
  · exact ho ▸ greetings_append ▸ List.prefix_rfl

theorem launchSpec_program {r : Request} {program : String} {spec : LaunchSpec}
    (hl : s.launchSpec r = .ok (program, spec)) : program? r = some program := by
  unfold launchSpec at hl
  cases hp : program? r with
  | none => cases hphase : s.phase <;> simp [hphase, hp] at hl
  | some program' =>
    cases hroot : Workspace.resolve s.roots program' <;>
      cases hphase : s.phase <;> simp [hphase, hp, hroot] at hl
    all_goals exact congrArg some hl.1

theorem accepted_outward (move : Move) (es : List Effect) :
    move.accepted? (outward es) = move.accepted? es := by
  have hr := pick_outward responses_picks es
  cases move <;> simp [Move.accepted?, hr]

theorem accepted_other {r : Request} (hr : r.command ≠ "launch") :
    (Move.request r).accepted? es = none := by
  simp [Move.accepted?, hr]

theorem accepted_error {r : Request} {code : Nat} {message : String}
    (hes : responses es = [.error r code message]) : (Move.request r).accepted? es = none := by
  simp [Move.accepted?, hes, Response.error]

/-- What sends no command of the handshake leaves it as it is. -/
theorem due_of_sent {command : String} {arguments : Json}
    (hl : t.link = (s.sending env command arguments).link) (hh : t.handshake = s.handshake)
    (hes : commands es = (s.link.send env.accepts command arguments).written)
    (hc : command ≠ "initialize" ∧ command ≠ "launch") :
    greetings (commands es) ++ t.due <+: s.due := by
  rw [due, hes, hl, hh, ← List.append_assoc, sending,
    sent_greetings s.link env.accepts command arguments hc.1 hc.2]
  exact List.prefix_rfl

/-- A handshake that ends with a command has written at most that. -/
theorem due_of_last {handshake : Handshake} {command : String} {arguments : Json}
    {rest : List (String × Json)} (hs : s.handshake = some handshake)
    (hu : handshake.unsent = (command, arguments) :: rest)
    (hg : ∀ n, greetings [.make n command arguments] = [(command, arguments)])
    (hl : t.link = (s.sending env command arguments).link) (hh : t.handshake = none)
    (hes : commands es = (s.link.send env.accepts command arguments).written) :
    greetings (commands es) ++ t.due <+: s.due := by
  have hsent := sent_greeting s.link env.accepts command arguments
  rw [hg] at hsent
  have hrest : greetings s.link.queued ++ [(command, arguments)] <+: s.due := by
    rw [due, hs, Option.map_some, Option.getD_some, hu]
    exact (List.prefix_append_right_inj _).mpr (List.prefix_append ..)
  rw [due, hes, hl, hh, sending, Option.map_none, Option.getD_none, List.append_nil]
  exact hsent.trans hrest

theorem plain_other {r : Request} (hr : r.command ∈ plainCommands) :
    r.command ≠ "initialize" ∧ r.command ≠ "launch" := by
  constructor <;> (intro hc; simp [hc, plainCommands] at hr)

/-- A move writes the next part of the handshake, or loses the end of it, or it accepts a launch and
begins one. -/
theorem Transition.due_cases (h : Transition env s move t es) :
    (move.accepted? es = none ∧ greetings (commands es) ++ t.due <+: s.due) ∨
    (∃ program, move.accepted? es = some program ∧ s.Unlaunched ∧ ¬ t.Unlaunched ∧
      commands es = [] ∧ t.due = Handshake.script program) := by
  -- Where the link is dropped nothing is left, and nothing was written.
  have hlost (hes : commands es = []) (ht : t.due = []) :
      greetings (commands es) ++ t.due <+: s.due := by
    rw [hes, ht]
    exact List.nil_prefix
  cases h with
  | started r program spec hr hu hl =>
    refine Or.inr ⟨program, ?_, hu, by simp [Unlaunched], rfl, rfl⟩
    rw [Move.accepted?, if_pos ⟨hr, rfl⟩, launchSpec_program hl]
  | greeted r hr | threadsNamed r hr =>
    exact Or.inl ⟨accepted_other (by simp [hr]), List.prefix_rfl⟩
  | refused | notStarted => exact Or.inl ⟨accepted_error rfl, List.prefix_rfl⟩
  | disconnected r hr =>
    refine Or.inl ⟨accepted_other (by rcases hr with hr | hr <;> simp [hr]), hlost ?_ rfl⟩
    rw [commands_picks.append]
    split <;> exact pick_farewell commands_picks rfl s
  | breakpointsSet r hr =>
    refine Or.inl ⟨accepted_other (by simp [hr]), ?_⟩
    exact due_of_sent rfl rfl (commands_writes_respond ..) (by simp)
  | forwarded r hr =>
    refine Or.inl ⟨accepted_other (plain_other hr).2, ?_⟩
    exact due_of_sent rfl rfl (commands_writes_respond ..) (plain_other hr)
  | unasked r hr hd =>
    refine Or.inl ⟨accepted_other (by simp [hr]), ?_⟩
    have hw := s.link.send_unheard env.accepts "stackTrace" (stackTraceArguments r)
      (by simpa [defers, hr] using hd)
    exact due_of_sent rfl rfl hw.symm (by simp)
  | deferred r hd =>
    refine Or.inl ⟨accepted_other (by simp [s.defers_command env hd]), ?_⟩
    exact due_of_sent rfl rfl (commands_writes ..) (by simp)
  | notUnderstood r hr =>
    exact Or.inl ⟨accepted_other (by rintro hc; simp [hc] at hr), List.prefix_rfl⟩
  | exited info =>
    refine Or.inl ⟨rfl, hlost ?_ rfl⟩
    cases s.endAnnounced <;> cases info.code <;> rfl
  | shutDown =>
    refine Or.inl ⟨rfl, hlost ?_ rfl⟩
    split <;> rfl
  | ended body =>
    refine Or.inl ⟨rfl, ?_⟩
    rw [pick_farewell commands_picks rfl s]
    exact List.prefix_rfl
  | settling program hh =>
    refine Or.inl ⟨rfl, ?_⟩
    simp [due, hh, commands, greetings, Handshake.unsent]
  | greetingSent program deadline hh hdue =>
    refine Or.inl ⟨rfl, ?_⟩
    by_cases hthrough : (s.link.isAttached && env.accepts) = true
    · -- It is written behind what was queued, and the second command is still to come.
      obtain ⟨ha, hacc⟩ := Bool.and_eq_true_iff.mp hthrough
      obtain ⟨hw, hq⟩ := s.link.send_through "initialize" (.record []) ha
      rw [commands_writes, hacc, hw, greetings_append]
      simp [due, sending, hacc, hq, ha, hh, Handshake.unsent, Handshake.script, greetings,
        Command.make]
    · exact due_of_last hh rfl (fun _ => rfl) rfl (if_neg hthrough) (commands_writes ..)
  | launchSent program deadline hh hdue =>
    exact Or.inl ⟨rfl, due_of_last hh rfl (fun _ => rfl) rfl rfl (commands_writes ..)⟩
  | answered index =>
    refine Or.inl ⟨rfl, ?_⟩
    cases s.released[index]? <;> exact List.prefix_rfl
  | _ => exact Or.inl ⟨rfl, List.prefix_rfl⟩

end Session
end DebugAdapter
