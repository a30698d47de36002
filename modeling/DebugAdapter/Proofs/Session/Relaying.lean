import DebugAdapter.Proofs.Json.Supply
import DebugAdapter.Proofs.Session.DeadLink
import DebugAdapter.Proofs.Session.HandshakeOrder

namespace DebugAdapter.Session

open Frontend Effect Debuggee

def relayedCommands : List String :=
  ["setBreakpoints", "stackTrace", "continue", "next", "stepIn", "stepOut", "pause",
    "configurationDone"]

/-- What the debuggee is told of a request, with its arguments. -/
inductive Relays (r : Request) : String × Json → Prop
  | breakpoints (source path : Json) (requested lines : List Json) :
      r.command = "setBreakpoints" →
      r.arguments.Supplies "source" id (fun _ => True) .null source →
      source.Supplies "path" id (fun _ => True) .null path →
      r.arguments.Supplies "breakpoints" .array (fun _ => True) [] requested →
      List.Forall₂ (fun breakpoint line =>
        breakpoint.Supplies "line" id (fun _ => True) .null line) requested lines →
      Relays r ("setBreakpoints", .object [("path", path), ("lines", .array lines)])
  | stackTrace (thread : Json) (first levels : Nat) :
      r.command = "stackTrace" →
      r.arguments.Supplies "threadId" id (fun _ => True) (.int 1) thread →
      r.arguments.Supplies "startFrame" .nat (· < 2 ^ 64) 0 first →
      r.arguments.Supplies "levels" .nat (fun n => 0 < n ∧ n < 2 ^ 64) 20 levels →
      Relays r ("stackTrace", .object
        [("threadId", thread), ("startFrame", .nat first), ("levels", .nat levels)])
  | plain : r.command ∈ ["continue", "next", "stepIn", "stepOut", "pause", "configurationDone"] →
      Relays r (r.command, .record [])

def Brings (r : Request) (c : Command) : Prop :=
  Relays r (c.command, c.arguments)

def others (cs : List Command) : List Command :=
  cs.filter fun c => c.command ≠ "initialize" ∧ c.command ≠ "launch"

namespace Happening

/-- The request that is to be passed on: it is of a command that is, and there is a link. -/
def relayed? (h : Happening) : Option Request :=
  match h.move with
  | .request r => if h.session.link.isAttached ∧ r.command ∈ relayedCommands then some r else none
  | _ => none

def FailsToWrite (h : Happening) : Prop :=
  ∃ command arguments, h.session.dispatched? h.env h.move = some (command, arguments) ∧
    (h.session.send h.env command arguments).1 = .error .brokenPipe

end Happening

section Requests

variable {r : Request}

theorem supplies_levels {body : Json} {levels : Nat} :
    body.Supplies "levels" .nat (fun n => 0 < n ∧ n < 2 ^ 64) 20 levels ↔
      (((body.field? "levels").bind Json.word?).filter (0 < ·)).getD 20 = levels := by
  refine Json.supplies_iff Json.nat_injective fun n => ?_
  rw [Json.filter_read_iff Json.word_read, decide_eq_true_eq]

theorem supplies_path {path : Json} :
    (∃ source, r.arguments.Supplies "source" id (fun _ => True) .null source ∧
      source.Supplies "path" id (fun _ => True) .null path) ↔ sourcePath r = path := by
  simp only [Json.supplies_any, exists_eq_left', sourcePath]
  cases r.arguments.field? "source" <;> rfl

theorem supplies_lines {requested lines : List Json} :
    List.Forall₂ (fun breakpoint line =>
        breakpoint.Supplies "line" id (fun _ => True) .null line) requested lines ↔
      requested.map breakpointLine = lines := by
  simp only [Json.supplies_any]
  change List.Forall₂ (fun breakpoint line => breakpointLine breakpoint = line) requested lines ↔ _
  rw [← List.forall₂_map_left_iff (R := Eq), List.forall₂_eq_eq_eq]

theorem relays_iff (r : Request) (p : String × Json) : Relays r p ↔ forwarded? r = some p := by
  constructor
  · intro hr
    cases hr with
    | breakpoints source path requested lines hc hsource hpath hrequested hlines =>
      rw [forwarded?, if_pos hc, hc, breakpointArguments, requestedBreakpoints,
        supplies_path.mp ⟨source, hsource, hpath⟩, Json.supplies_items.mp hrequested,
        supplies_lines.mp hlines]
    | stackTrace thread first levels hc hthread hfirst hlevels =>
      have hs : r.command ≠ "setBreakpoints" := by simp [hc]
      have hp : r.command ∉ plainCommands := by simp [hc, plainCommands]
      rw [forwarded?, if_neg hs, if_neg hp, if_pos hc, hc, ← Json.supplies_any.mp hthread,
        ← Json.supplies_word.mp hfirst, ← supplies_levels.mp hlevels]
      rfl
    | plain hc =>
      have hs : r.command ≠ "setBreakpoints" := by
        intro hs
        simp [hs] at hc
      rw [forwarded?, if_neg hs]
      exact if_pos hc
  · intro hf
    unfold forwarded? at hf
    split at hf
    · rename_i hc
      obtain rfl := Option.some.inj hf
      obtain ⟨source, hsource, hpath⟩ := supplies_path.mpr (rfl : sourcePath r = _)
      rw [hc]
      exact .breakpoints source _ _ _ hc hsource hpath (Json.supplies_items.mpr rfl)
        (supplies_lines.mpr rfl)
    · split at hf
      · rename_i hc
        obtain rfl := Option.some.inj hf
        exact .plain hc
      · split at hf
        · rename_i hc
          obtain rfl := Option.some.inj hf
          rw [hc]
          exact .stackTrace _ _ _ hc (Json.supplies_any.mpr rfl) (Json.supplies_word.mpr rfl)
            (supplies_levels.mpr rfl)
        · cases hf

theorem forwarded_isSome_iff : (forwarded? r).isSome ↔ r.command ∈ relayedCommands := by
  constructor
  · intro hf
    rcases forwarded_cases hf with hr | hr | hr
    · simp [relayedCommands, hr]
    · exact List.mem_cons_of_mem _ (List.mem_cons_of_mem _ hr)
    · simp [relayedCommands, hr]
  · intro hr
    rcases List.mem_cons.mp hr with hr | hr
    · simp [forwarded?, hr]
    rcases List.mem_cons.mp hr with hr | hr
    · simp [forwarded?, hr, plainCommands]
    · have hs : r.command ≠ "setBreakpoints" := by
        intro hs
        simp [hs] at hr
      have hp : r.command ∈ plainCommands := hr
      simp [forwarded?, hs, hp]

/-- What a request is passed on as: its name and its arguments, which are never null. -/
theorem brings_of_forwarded {command : String} {arguments : Json}
    (hf : forwarded? r = some (command, arguments)) (number : Nat) :
    Brings r (.make number command arguments) := by
  have hr := (relays_iff r (command, arguments)).mpr hf
  cases hr with
  | breakpoints | stackTrace | plain => exact (relays_iff r _).mpr hf

end Requests

variable {env : Environment} {s t : Session} {move : Move} {es : List Effect}

/-- The handshake sends nothing but its commands. -/
theorem greeting_name {command : String} {arguments : Json}
    (hg : s.greeting? env = some (command, arguments)) :
    command = "initialize" ∨ command = "launch" := by
  unfold greeting? at hg
  split at hg
  · split at hg <;> cases hg
    exact Or.inl rfl
  · split at hg <;> cases hg
    exact Or.inr rfl
  · cases hg

/-- Where nothing is queued and no write fails a move writes the command that it sends, if there is
a link, and leaves nothing queued. -/
theorem Transition.written_now (h : Transition env s move t es) (hq : s.link.queued = [])
    (hok : ¬ Happening.FailsToWrite ⟨s, env, move⟩) :
    t.link.queued = [] ∧ commands es =
      if s.link.isAttached then
        ((s.dispatched? env move).map fun p => .make s.link.nextSeq p.1 p.2).toList
      else [] := by
  rcases h.link_cases with ⟨command, arguments, hd, hl, hw⟩ | ⟨hd, hw, hl⟩
  · rw [hl, hw, hd]
    rcases s.link.send_cases env.accepts command arguments with
      ⟨ha, _, queue, hs, hsend⟩ | ⟨_, _, queue, hsend⟩ | ⟨ha, hsend⟩
    · have hnone : queue.commands = [] := by simpa [Link.queued, hs] using hq
      rw [sending, hsend, if_pos ha, hnone]
      exact ⟨rfl, rfl⟩
    · refine absurd ⟨command, arguments, hd, ?_⟩ hok
      exact congrArg Sending.result hsend
    · rw [sending, hsend, if_neg (by simp [ha])]
      exact ⟨hq, rfl⟩
  · rw [hw, hd]
    refine ⟨?_, by split <;> rfl⟩
    rcases hl with hl | hl | ⟨_, hl⟩
    · exact hl ▸ hq
    · exact hl ▸ rfl
    · exact hl ▸ rfl

theorem others_append (cs ds : List Command) : others (cs ++ ds) = others cs ++ others ds :=
  List.filter_append ..

/-- What is passed on is no command of the handshake. -/
theorem others_relayed {c : Command} (hc : c.command ∈ relayedCommands) : others [c] = [c] := by
  have hi : c.command ≠ "initialize" := by
    intro hi
    simp [hi, relayedCommands] at hc
  have hl : c.command ≠ "launch" := by
    intro hl
    simp [hl, relayedCommands] at hc
  simp [others, hi, hl]

/-- What one move brings to the debuggee besides the handshake: the request, if it is one that is
passed on. -/
structure Passes (h : Happening) : Prop where
  unqueued : h.next.link.queued = []
  brought : List.Forall₂ Brings h.relayed?.toList (others (commands h.effects))
  asked : ∀ r, h.move = .request r → others (commands h.effects) = commands h.effects

theorem request_passes {r : Request} (hq : s.link.queued = [])
    (hok : ¬ Happening.FailsToWrite ⟨s, env, .request r⟩) : Passes ⟨s, env, .request r⟩ := by
  obtain ⟨hunqueued, hwritten⟩ := (s.step_transition env (.request r)).written_now hq hok
  rw [pick_outward commands_picks] at hwritten
  have hrelayed : Happening.relayed? ⟨s, env, .request r⟩ =
      if s.link.isAttached ∧ r.command ∈ relayedCommands then some r else none := rfl
  have hbrought : List.Forall₂ Brings (Happening.relayed? ⟨s, env, .request r⟩).toList
      (commands (s.step env (.request r)).2) ∧
      others (commands (s.step env (.request r)).2) = commands (s.step env (.request r)).2 := by
    rw [hwritten, hrelayed]
    by_cases ha : s.link.isAttached = true
    · rw [if_pos ha]
      cases hf : forwarded? r with
      | none =>
        have hother : r.command ∉ relayedCommands := by
          intro hr
          simpa [hf] using forwarded_isSome_iff.mpr hr
        rw [if_neg (fun h => hother h.2), dispatched?, hf]
        exact ⟨.nil, rfl⟩
      | some p =>
        obtain ⟨command, arguments⟩ := p
        have hr : r.command ∈ relayedCommands := forwarded_isSome_iff.mp (by simp [hf])
        rw [if_pos ⟨ha, hr⟩, dispatched?, hf]
        refine ⟨.cons (brings_of_forwarded hf _) .nil, others_relayed ?_⟩
        exact forwarded_command hf ▸ hr
    · rw [if_neg ha, if_neg (fun h => ha h.1)]
      exact ⟨.nil, rfl⟩
  exact ⟨hunqueued, hbrought.2.symm ▸ hbrought.1, fun _ _ => hbrought.2⟩

theorem step_passes (hq : s.link.queued = []) (hok : ¬ Happening.FailsToWrite ⟨s, env, move⟩) :
    Passes ⟨s, env, move⟩ := by
  obtain ⟨hunqueued, hwritten⟩ := (s.step_transition env move).written_now hq hok
  rw [pick_outward commands_picks] at hwritten
  cases move with
  | request r => exact request_passes hq hok
  | handshake =>
    refine ⟨hunqueued, ?_, by rintro _ ⟨⟩⟩
    have hnone : others (commands (s.step env .handshake).2) = [] := by
      rw [hwritten, dispatched?]
      split
      · cases hg : s.greeting? env with
        | none => rfl
        | some p =>
          obtain ⟨command, arguments⟩ := p
          rcases greeting_name hg with rfl | rfl <;> rfl
      · rfl
    exact hnone.symm ▸ .nil
  | report | timer | answer | shutDown =>
    refine ⟨hunqueued, ?_, by rintro _ ⟨⟩⟩
    have hnone : commands (s.step env _).2 = [] := hwritten.trans (by split <;> rfl)
    rw [Happening.effects, hnone]
    exact .nil

/-- Without failing writes everything passes, and nothing is queued. -/
theorem run_passes {s : Session} (hs : s.link.queued = []) (course : Course) :
    (∀ h ∈ s.history course, ¬ h.FailsToWrite) →
      (s.after course).link.queued = [] ∧
      List.Forall₂ Brings ((s.history course).filterMap Happening.relayed?)
        (others (sent (s.history course))) := by
  refine history_induction (P := fun past t => (∀ h ∈ past, ¬ h.FailsToWrite) →
    t.link.queued = [] ∧
    List.Forall₂ Brings (past.filterMap Happening.relayed?) (others (sent past))) ?_ ?_ course
  · exact fun _ => ⟨hs, .nil⟩
  · intro past t env move ih hok
    rw [List.forall_mem_append] at hok
    obtain ⟨hq, hbrought⟩ := ih hok.1
    have hstep := step_passes hq (hok.2 _ List.mem_cons_self)
    refine ⟨hstep.unqueued, ?_⟩
    rw [List.filterMap_append, sent_snoc, others_append]
    exact List.rel_append hbrought hstep.brought

/-- A debuggee that takes what it is told fails no write. -/
theorem willing_writes {course : Course} (hw : ∀ happened ∈ course, happened.1.accepts = true)
    (s : Session) : ∀ h ∈ s.history course, ¬ h.FailsToWrite := by
  induction course generalizing s with
  | nil => exact fun h hin => absurd hin List.not_mem_nil
  | cons happened course ih =>
    rw [List.forall_mem_cons] at hw
    rw [history, List.forall_mem_cons]
    refine ⟨?_, ih hw.2 _⟩
    rintro ⟨command, arguments, _, hfails⟩
    have hresult : (s.link.send happened.1.accepts command arguments).result =
        .error .brokenPipe := hfails
    rcases s.link.send_cases happened.1.accepts command arguments with
      ⟨_, _, _, _, hsend⟩ | ⟨_, hacc, _⟩ | ⟨_, hsend⟩
    · rw [hsend] at hresult
      cases hresult
    · rw [hw.1] at hacc
      cases hacc
    · rw [hsend] at hresult
      cases hresult

/-- As long as no write fails, what the debuggee is told besides the handshake is what the requests
ask for that are handled while there is a link, in their order and one for one. No request brings it
anything else. Without a link a request that would be passed on writes nothing and succeeds. -/
theorem requests_reach_debuggee_once (config : Config) (roots : List String) (course : Course)
    (hok : ∀ h ∈ (start config roots).history course, ¬ h.FailsToWrite) :
    let s := start config roots
    List.Forall₂ Brings ((s.history course).filterMap Happening.relayed?)
      (others (commands (s.effects course))) ∧
    ∀ h ∈ s.history course, ∀ r, h.move = .request r →
      List.Forall₂ Brings h.relayed?.toList (commands h.effects) ∧
      (r.command ∈ relayedCommands → h.session.link.isAttached = false →
        commands h.effects = [] ∧ ∃ body, responses h.effects = [.ok r body]) := by
  intro s
  refine ⟨?_, ?_⟩
  · rw [s.effects_history course]
    exact (run_passes rfl course hok).2
  · intro h hin r hr
    obtain ⟨before, after, hsplit⟩ := List.mem_iff_append.mp hin
    obtain ⟨first, hbefore, hsession⟩ := history_split hsplit
    have hq : h.session.link.queued = [] := by
      rw [← hsession]
      refine (run_passes rfl first fun g hg => hok g ?_).1
      rw [hbefore] at hg
      exact hsplit ▸ List.mem_append_left _ hg
    have hpasses := step_passes hq (hok h hin)
    have hbrought := hpasses.brought
    rw [hpasses.asked r hr] at hbrought
    refine ⟨hbrought, fun hc hd => ?_⟩
    have hnone : h.relayed? = none := by simp [Happening.relayed?, hr, hd]
    rw [hnone] at hbrought
    obtain ⟨body, hbody, _⟩ := detached_answers hd h.env (forwarded_isSome_iff.mpr hc)
    refine ⟨List.forall₂_nil_left_iff.mp hbrought, body, ?_⟩
    rw [Happening.effects, hr]
    exact hbody

/-- One request before the launch, and one amid the handshake. -/
def hasty : Course :=
  (willing 0, .request { seq := 7, command := "pause" }) :: tracing.take 3 ++
    [(willing 550, .request { seq := 8, command := "next" })] ++ tracing.drop 3

theorem hasty_requests_reach_debuggee :
    let s := start {} ["/w"]
    (∀ h ∈ s.history hasty, ¬ h.FailsToWrite) ∧
    List.Forall₂ Brings [{ seq := 8, command := "next" }, traceRequest 2]
      (others (commands (s.effects hasty))) ∧
    (commands (s.effects hasty)).map Command.command =
      ["initialize", "next", "launch", "stackTrace"] := by
  intro s
  have hok : ∀ h ∈ s.history hasty, ¬ h.FailsToWrite :=
    willing_writes (by simp [hasty, tracing, willing]) s
  exact ⟨hok, (requests_reach_debuggee_once {} ["/w"] hasty hok).1, rfl⟩

end DebugAdapter.Session
