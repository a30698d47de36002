import DebugAdapter.Proofs.Session.FirstWords

namespace DebugAdapter.Session

open Frontend Effect Debuggee

variable {s : Session} {past : List Happening} {cs : List Command} {h : Happening}

theorem unsent_launch (handshake : Handshake) :
    "launch" ∈ handshake.unsent.map Prod.fst := by
  cases handshake <;> simp [Handshake.unsent, Handshake.script]

theorem Ungreeted.unsent {handshake : Handshake} (hu : s.Ungreeted)
    (hh : s.handshake = some handshake) : "initialize" ∈ handshake.unsent.map Prod.fst := by
  cases handshake with
  | acknowledging program deadline => simp [Ungreeted, hh] at hu
  | _ => simp [Handshake.unsent, Handshake.script]

theorem greetings_command {c : Command} (hc : c ∈ cs)
    (hg : c.command = "initialize" ∨ c.command = "launch") :
    c.command ∈ (greetings cs).map Prod.fst :=
  List.mem_map.mpr ⟨_, mem_greetings hc hg, rfl⟩

/-- What the handshake has still to send was not said, for each of its commands is sent once. -/
theorem Ordered.unsaid (ho : Ordered past s) {handshake : Handshake} {name : String}
    (hh : s.handshake = some handshake) (hname : name = "initialize" ∨ name = "launch")
    (hin : name ∈ handshake.unsent.map Prod.fst) : ∀ c ∈ words past s, c.command ≠ name := by
  intro c hc hcommand
  have hgreeting : name ∈ (greetings (words past s)).map Prod.fst := by
    subst hcommand
    exact greetings_command hc hname
  have horder := ho.order
  have hdue : greetings (sent past) ++ s.due = greetings (words past s) ++ handshake.unsent := by
    rw [due, hh, ← List.append_assoc, ← greetings_append]
    rfl
  have honce : (((accepted past).flatMap Handshake.script).map Prod.fst).count name ≤ 1 := by
    rcases ha : accepted past with _ | ⟨program, _ | ⟨another, others⟩⟩
    · exact Nat.zero_le _
    · rcases hname with rfl | rfl <;> simp [Handshake.script]
    · have := ho.once
      simp [ha] at this
  have hcount := (horder.sublist.map Prod.fst).count_le name
  rw [hdue, List.map_append, List.count_append] at hcount
  have hsaid := List.count_pos_iff.mpr hgreeting
  have hleft := List.count_pos_iff.mpr hin
  omega

/-- A request that is passed on amid the handshake is written there and then. -/
theorem hurried_commands (hh : h.Hurried) (hacc : h.env.accepts = true) :
    ∃ c, commands h.effects = h.session.link.queued ++ [c] ∧ c.command ∈ relayedCommands := by
  obtain ⟨s, env, move⟩ := h
  obtain ⟨r, hmove, hr, ha, _⟩ := hh
  have hmove : move = .request r := hmove
  subst hmove
  obtain ⟨⟨command, arguments⟩, hf⟩ := Option.isSome_iff_exists.mp (forwarded_isSome_iff.mpr hr)
  have hwritten : commands (s.step env (.request r)).2 =
      (s.link.send env.accepts command arguments).written := by
    rw [← pick_outward commands_picks]
    rcases (s.step_transition env (.request r)).link_cases with
      ⟨command', arguments', hd, _, hw⟩ | ⟨hd, _⟩
    · cases hf.symm.trans hd
      exact hw
    · cases hf.symm.trans hd
  have hacc : env.accepts = true := hacc
  refine ⟨.make s.link.nextSeq command arguments, ?_, forwarded_command hf ▸ hr⟩
  rw [Happening.effects, hwritten, hacc]
  exact (s.link.send_through command arguments ha).1

/-- A hurried request is written right behind the words that were spoken before it. -/
theorem hurried_wire (before after : List Happening) (hh : h.Hurried)
    (hacc : h.env.accepts = true) : ∃ c, c.command ∈ relayedCommands ∧
      sent (before ++ h :: after) = words before h.session ++ c :: sent after := by
  obtain ⟨c, hcommands, hc⟩ := hurried_commands hh hacc
  refine ⟨c, hc, ?_⟩
  rw [sent_append, words, List.append_assoc]
  congr 1
  change commands (h.effects ++ after.flatMap Happening.effects) = _
  rw [commands_picks.append, hcommands, List.append_assoc]
  rfl

/-- As long as no request is passed on amid the handshake, the first that the debuggee hears is
`initialize`, with the lowest number. Unless that failed it also hears `launch` before any request.
But a request that is passed on amid the handshake, and taken, comes before `launch`, and before
`initialize` if that was not sent yet. -/
theorem introduced_unless_hurried (config : Config) (roots : List String) (course : Course) :
    let s := start config roots
    let hist := s.history course
    let cs := commands (s.effects course)
    ((∀ h ∈ hist, ¬ h.Hurried) →
      LedByInitialize cs ∧ ((∀ h ∈ hist, ¬ h.FailsToGreet) → ReadyFirst cs)) ∧
    ∀ h ∈ hist, h.Hurried → h.env.accepts = true →
      ¬ ReadyFirst cs ∧ (h.session.Ungreeted → ¬ LedByInitialize cs) := by
  intro s hist cs
  have hcs : cs = sent hist := congrArg commands (s.effects_history course)
  refine ⟨?_, ?_⟩
  · intro hu
    have hspoken := spoken_after config roots course hu
    rw [hcs]
    refine ⟨ledByInitialize_of_words (numbered_after config roots course) hspoken.led, ?_⟩
    exact fun hg => readyFirst_prefix (hspoken.ready hg) (List.prefix_append ..)
  · intro h hin hh hacc
    obtain ⟨before, after, hsplit⟩ := List.mem_iff_append.mp hin
    obtain ⟨first, hbefore, hsession⟩ := history_split hsplit
    have ho : Ordered before h.session := by
      obtain ⟨ho, _⟩ := run_handshake config roots first
      exact hsession ▸ hbefore ▸ ho
    obtain ⟨c, hc, hwire⟩ := hurried_wire before after hh hacc
    rw [← hsplit, ← hcs] at hwire
    obtain ⟨handshake, hhandshake⟩ := Option.ne_none_iff_exists'.mp hh.choose_spec.2.2.2
    refine ⟨?_, ?_⟩
    · intro hready
      obtain ⟨_, d, hd, hlaunch⟩ := hready _ c _ hwire hc
      exact ho.unsaid hhandshake (Or.inr rfl) (unsent_launch handshake) d hd hlaunch
    · intro hu hled
      cases hw : words before h.session with
      | nil =>
        rw [hw] at hwire
        have hname := (hled c _ hwire).1
        simp [hname, relayedCommands] at hc
      | cons d rest =>
        have hunsaid := ho.unsaid hhandshake (Or.inl rfl) (hu.unsent hhandshake)
        rw [hw] at hwire hunsaid
        exact hunsaid d List.mem_cons_self (hled d _ hwire).1

theorem unhurried_of_move (hm : ∀ r, h.move ≠ .request r) : ¬ h.Hurried := by
  rintro ⟨r, hr, _⟩
  exact hm r hr

/-- A stack trace that is asked for after the handshake. -/
theorem tracing_introduced :
    let s := start {} ["/w"]
    (∀ h ∈ s.history tracing, ¬ h.Hurried) ∧ LedByInitialize (commands (s.effects tracing)) := by
  intro s
  have hu : ∀ h ∈ s.history tracing, ¬ h.Hurried := by
    simp only [tracing, history, List.forall_mem_cons]
    refine ⟨?launch, ?start, ?greet, ?tell, ?trace, fun _ hin => absurd hin List.not_mem_nil⟩
    case launch =>
      rintro ⟨r, hr, hc, _⟩
      obtain rfl := Move.request.inj hr
      simp [relayedCommands] at hc
    case trace =>
      rintro ⟨r, _, _, _, hh⟩
      exact hh rfl
    all_goals exact unhurried_of_move fun _ hm => Move.noConfusion hm
  exact ⟨hu, ((introduced_unless_hurried {} ["/w"] tracing).1 hu).1⟩

def impatient : Course :=
  tracing.take 1 ++ (willing 0, .request { seq := 2, command := "next" }) ::
    (tracing.drop 1).take 3

theorem commanded_before_introduced :
    let cs := commands ((start {} ["/w"]).effects impatient)
    cs = [.make 1 "next" (.record []), .make 2 "initialize" (.record []),
      .make 3 "launch" (.object [("program", .string "/w/a")])] ∧
    ¬ ReadyFirst cs ∧ ¬ LedByInitialize cs := by
  intro cs
  have hcs : cs = .make 1 "next" (.record []) :: [.make 2 "initialize" (.record []),
      .make 3 "launch" (.object [("program", .string "/w/a")])] := rfl
  refine ⟨hcs, ?_, ?_⟩
  · intro hready
    obtain ⟨⟨c, hc, _⟩, _⟩ := hready [] _ _ hcs (by simp [Command.make, relayedCommands])
    cases hc
  · intro hled
    have hname := (hled _ _ hcs).1
    simp [Command.make] at hname

end DebugAdapter.Session
