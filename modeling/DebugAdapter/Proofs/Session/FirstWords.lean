import DebugAdapter.Proofs.Session.Endings
import DebugAdapter.Proofs.Session.Relaying

namespace DebugAdapter

open Frontend Effect Debuggee

def Introduced (cs : List Command) : Prop :=
  (∃ c ∈ cs, c.command = "initialize") ∧ ∃ c ∈ cs, c.command = "launch"

/-- No request is passed on before the debuggee is ready. -/
def ReadyFirst (cs : List Command) : Prop :=
  ∀ before c after, cs = before ++ c :: after → c.command ∈ Session.relayedCommands →
    Introduced before

/-- The first command is `initialize`, and it has the lowest number. -/
def LedByInitialize (cs : List Command) : Prop :=
  ∀ c rest, cs = c :: rest →
    c.command = "initialize" ∧ c.seq = 1 ∧ ∀ d ∈ rest, c.seq < d.seq

namespace Debuggee.Link

variable (l : Link) (accepts : Bool) (command : String) (arguments : Json)

/-- Each command uses up a number. -/
theorem send_number (ha : l.isAttached = true) :
    (l.send accepts command arguments).link.nextSeq = l.nextSeq + 1 := by
  rcases l.send_cases accepts command arguments with ⟨_, _, _, _, h⟩ | ⟨_, _, _, h⟩ | ⟨hd, _⟩
  · rw [h]
  · rw [h]
  · simp [ha] at hd

theorem send_detached (hd : l.isAttached = false) :
    (l.send accepts command arguments).written = [] ∧
      (l.send accepts command arguments).link = l := by
  rcases l.send_cases accepts command arguments with ⟨ha, _⟩ | ⟨ha, _⟩ | ⟨_, h⟩
  · simp [hd] at ha
  · simp [hd] at ha
  · rw [h]
    exact ⟨rfl, rfl⟩

/-- Where nothing is queued there is room for a command, so it is not dropped. -/
theorem send_unqueued (ha : l.isAttached = true) (hq : l.queued = []) :
    (l.send accepts command arguments).written ++
      (l.send accepts command arguments).link.queued = [.make l.nextSeq command arguments] := by
  obtain ⟨queue, hs⟩ := Option.isSome_iff_exists.mp ha
  have hnone : queue.commands = [] := by simpa [queued, hs] using hq
  have hroom : ¬ queueBytes ≤ queue.size := by simp [Queue.size, hnone, queueBytes]
  have hflush := flush_append (queue.push (.make l.nextSeq command arguments)) (.ofBool accepts)
  simpa [send, transmit, hs, hroom, queued, Queue.push, hnone] using hflush

end Debuggee.Link

namespace Session

/-- What was written to the debuggee, and what is queued behind it. -/
def words (past : List Happening) (s : Session) : List Command :=
  sent past ++ s.link.queued

def Ungreeted (s : Session) : Prop :=
  match s.handshake with
  | some (.starting _) | some (.settling ..) => True
  | _ => False

def hello : Command :=
  .make 1 "initialize" (.record [])

/-- A request is to be passed on while the handshake is under way. -/
def Happening.Hurried (h : Happening) : Prop :=
  ∃ r, h.move = .request r ∧ r.command ∈ relayedCommands ∧ h.session.link.isAttached = true ∧
    h.session.handshake ≠ none

variable {env : Environment} {s t : Session} {move : Move} {es : List Effect}
  {past : List Happening} {cs ds : List Command}

section Lists

theorem introduced_grow (hi : Introduced cs) (hp : cs <+: ds) : Introduced ds := by
  obtain ⟨⟨c, hc, hname⟩, d, hd, hlaunch⟩ := hi
  exact ⟨⟨c, hp.subset hc, hname⟩, d, hp.subset hd, hlaunch⟩

theorem readyFirst_prefix (hr : ReadyFirst ds) (hp : cs <+: ds) : ReadyFirst cs := by
  obtain ⟨rest, rfl⟩ := hp
  intro before c after hcs hc
  apply hr before c (after ++ rest) _ hc
  rw [hcs, List.append_assoc]
  rfl

/-- One command more may be said if it is none that is passed on, or all is said that is needed. -/
theorem readyFirst_snoc {c : Command} (hr : ReadyFirst cs)
    (hc : c.command ∈ relayedCommands → Introduced cs) : ReadyFirst (cs ++ [c]) := by
  intro before d after hcs hd
  rcases List.eq_nil_or_concat after with rfl | ⟨rest, last, rfl⟩
  · obtain ⟨hbefore, hlast⟩ := List.append_inj' hcs rfl
    obtain rfl := (List.cons.inj hlast).1
    exact hbefore ▸ hc hd
  · rw [List.concat_eq_append, ← List.cons_append, ← List.append_assoc] at hcs
    obtain ⟨hcs, _⟩ := List.append_inj' hcs rfl
    exact hr before d rest hcs hd

end Lists

/-- The numbers of what is said grow, and the next is higher than all. -/
structure Numbered (past : List Happening) (s : Session) : Prop where
  below : ∀ c ∈ words past s, c.seq < s.link.nextSeq
  growing : (words past s).Pairwise (·.seq < ·.seq)

theorem words_step (past : List Happening) (s : Session) (env : Environment) (move : Move) :
    words (past ++ [⟨s, env, move⟩]) (s.step env move).1 =
      sent past ++ (commands (outward (s.step env move).2) ++ (s.step env move).1.link.queued) := by
  rw [words, sent_snoc, Happening.effects, pick_outward commands_picks, List.append_assoc]

/-- A move adds its command to what is said, with the next number, or it adds nothing. -/
theorem Transition.said_cases (h : Transition env s move t es) :
    (commands es ++ t.link.queued <+: s.link.queued ∧ s.link.nextSeq ≤ t.link.nextSeq) ∨
    ∃ command arguments, s.dispatched? env move = some (command, arguments) ∧
      commands es ++ t.link.queued =
        s.link.queued ++ [.make s.link.nextSeq command arguments] ∧
      t.link.nextSeq = s.link.nextSeq + 1 := by
  rcases h.link_cases with ⟨command, arguments, hd, hl, hw⟩ | ⟨_, hw, hl | hl | ⟨_, hl⟩⟩
  · rw [hl, hw]
    cases ha : s.link.isAttached with
    | false =>
      obtain ⟨hwritten, hlink⟩ := s.link.send_detached env.accepts command arguments ha
      rw [sending, hwritten, hlink]
      exact Or.inl ⟨List.prefix_rfl, Nat.le_refl _⟩
    | true =>
      have hnumber := s.link.send_number env.accepts command arguments ha
      rcases s.link.send_order env.accepts command arguments with ho | ho
      · exact Or.inl ⟨ho ▸ List.prefix_rfl, s.link.send_number_le ..⟩
      · exact Or.inr ⟨command, arguments, hd, ho, hnumber⟩
  · rw [hw, hl]
    exact Or.inl ⟨List.prefix_rfl, Nat.le_refl _⟩
  · rw [hw, hl]
    exact Or.inl ⟨List.nil_prefix, Nat.le_refl _⟩
  · rw [hw, hl]
    exact Or.inl ⟨List.nil_prefix, Nat.le_refl _⟩

theorem step_numbered (hn : Numbered past s) (env : Environment) (move : Move) :
    Numbered (past ++ [⟨s, env, move⟩]) (s.step env move).1 := by
  have hwords := words_step past s env move
  rcases (s.step_transition env move).said_cases with ⟨hfront, hle⟩ |
    ⟨command, arguments, _, hsaid, hnumber⟩
  · have hp : words (past ++ [⟨s, env, move⟩]) (s.step env move).1 <+: words past s := by
      rw [hwords]
      exact (List.prefix_append_right_inj _).mpr hfront
    refine ⟨?_, hn.growing.sublist hp.sublist⟩
    intro c hc
    exact Nat.lt_of_lt_of_le (hn.below c (hp.subset hc)) hle
  · rw [hsaid, ← List.append_assoc] at hwords
    refine ⟨?_, ?_⟩
    · intro c hc
      rw [hnumber]
      rw [hwords, List.mem_append, List.mem_singleton] at hc
      rcases hc with hold | rfl
      · exact Nat.lt_succ_of_lt (hn.below c hold)
      · exact Nat.lt_succ_self _
    · rw [hwords, List.pairwise_append]
      refine ⟨hn.growing, List.pairwise_singleton .., ?_⟩
      intro c hc d hd
      rw [List.mem_singleton.mp hd]
      exact hn.below c hc

theorem numbered_after (config : Config) (roots : List String) (course : Course) :
    Numbered ((start config roots).history course) ((start config roots).after course) :=
  history_induction (P := Numbered) ⟨fun _ hc => absurd hc List.not_mem_nil, List.Pairwise.nil⟩
    (fun _ _ env move hn => step_numbered hn env move) course

/-- What a move that does not hurry says, and what becomes of the handshake. -/
inductive Speech (env : Environment) (s : Session) (move : Move) (t : Session)
    (cs : List Command) : Prop
  | silent : cs = [] → t.link = s.link → t.handshake = s.handshake ∨ s.Ungreeted ∧ t.Ungreeted →
      Speech env s move t cs
  | cut : cs = [] → t.link = s.link.detach → t.handshake = none → Speech env s move t cs
  | began : cs = [] → s.Unlaunched → ¬ t.Unlaunched → t.link = s.link.attach → t.Ungreeted →
      Speech env s move t cs
  | relayed (command : String) (arguments : Json) : s.link.isAttached = true →
      s.handshake = none → t.handshake = none →
      t.link = (s.sending env command arguments).link →
      cs = (s.link.send env.accepts command arguments).written → Speech env s move t cs
  | greeted (program : String) (deadline : Nat) : move = .handshake →
      s.greeting? env = some ("initialize", .record []) → s.Ungreeted →
      t.link = (s.sending env "initialize" (.record [])).link →
      cs = (s.link.send env.accepts "initialize" (.record [])).written →
      t.handshake = (if s.link.isAttached && env.accepts then
        some (.acknowledging program deadline) else none) → Speech env s move t cs
  | launched (program : String) (deadline : Nat) (arguments : Json) :
      s.handshake = some (.acknowledging program deadline) →
      t.link = (s.sending env "launch" arguments).link →
      cs = (s.link.send env.accepts "launch" arguments).written → t.handshake = none →
      Speech env s move t cs

theorem speech_of_request {r : Request} {command : String} {arguments : Json}
    (hu : ¬ Happening.Hurried ⟨s, env, .request r⟩) (hr : r.command ∈ relayedCommands)
    (hh : t.handshake = s.handshake) (hl : t.link = (s.sending env command arguments).link)
    (hw : cs = (s.link.send env.accepts command arguments).written) :
    Speech env s (.request r) t cs := by
  cases ha : s.link.isAttached with
  | false =>
    obtain ⟨hwritten, hlink⟩ := s.link.send_detached env.accepts command arguments ha
    exact .silent (hw.trans hwritten) (hl.trans hlink) (Or.inl hh)
  | true =>
    have hnone : s.handshake = none := by
      by_contra hpending
      exact hu ⟨r, rfl, hr, ha, hpending⟩
    exact .relayed command arguments ha hnone (hh.trans hnone) hl hw

/-- What a transition writes, unless a request hurries it. -/
theorem Transition.speech (h : Transition env s move t es)
    (hu : ¬ Happening.Hurried ⟨s, env, move⟩) : Speech env s move t (commands es) := by
  cases h with
  | started r program spec hr hun =>
    exact .began rfl hun (by simp [Unlaunched]) rfl trivial
  | disconnected r hr =>
    refine .cut ?_ rfl rfl
    rw [commands_picks.append]
    split <;> exact pick_farewell commands_picks rfl s
  | exited info =>
    refine .cut ?_ rfl rfl
    cases s.endAnnounced <;> cases info.code <;> rfl
  | shutDown =>
    refine .cut ?_ rfl rfl
    split <;> rfl
  | breakpointsSet r hr =>
    exact speech_of_request hu (by simp [relayedCommands, hr]) rfl rfl
      (commands_writes_respond ..)
  | forwarded r hr =>
    exact speech_of_request hu (List.mem_cons_of_mem _ (List.mem_cons_of_mem _ hr)) rfl rfl
      (commands_writes_respond ..)
  | unasked r hr hd =>
    have hw := s.link.send_unheard env.accepts "stackTrace" (stackTraceArguments r)
      (by simpa [defers, hr] using hd)
    exact speech_of_request hu (by simp [relayedCommands, hr]) rfl rfl hw.symm
  | deferred r hd =>
    have hr := s.defers_command env hd
    exact speech_of_request hu (by simp [relayedCommands, hr]) rfl rfl (commands_writes ..)
  | ended body => exact .silent (pick_farewell commands_picks rfl s) rfl (Or.inl rfl)
  | settling program hh =>
    exact .silent rfl rfl (Or.inr ⟨by simp [Ungreeted, hh], trivial⟩)
  | greetingSent program deadline hh hdue =>
    exact .greeted program _ rfl (by simp [greeting?, hh, hdue]) (by simp [Ungreeted, hh]) rfl
      (commands_writes ..) rfl
  | launchSent program deadline hh hdue =>
    exact .launched program deadline _ hh rfl (commands_writes ..) rfl
  | answered index =>
    refine .silent ?_ rfl (Or.inl rfl)
    cases s.released[index]? <;> rfl
  | _ => exact .silent rfl rfl (Or.inl rfl)

def Unfailing (past : List Happening) : Prop :=
  ∀ h ∈ past, ¬ h.FailsToGreet

/-- What was said so far, and where the handshake stands. -/
structure Spoken (past : List Happening) (s : Session) : Prop where
  unlaunched : s.Unlaunched → s.handshake = none ∧ s.link.isAttached = false
  unsaid : s.Unlaunched ∨ s.Ungreeted → words past s = [] ∧ s.link.nextSeq = 1
  greeted : ∀ program deadline, s.handshake = some (.acknowledging program deadline) →
    words past s = [hello] ∧ s.link.queued = []
  led : words past s = [] ∨ [hello] <+: words past s
  opened : s.handshake = none → s.link.isAttached = true →
    [hello] <+: words past s ∧ (Unfailing past → Introduced (words past s))
  ready : Unfailing past → ReadyFirst (words past s)

section Steps

variable {h : Happening}

theorem Unfailing.of_snoc (hg : Unfailing (past ++ [h])) : Unfailing past :=
  fun g hin => hg g (List.mem_append_left _ hin)

theorem readyFirst_nil : ReadyFirst [] := by
  intro before c after hcs
  simp at hcs

theorem readyFirst_hello : ReadyFirst [hello] :=
  readyFirst_snoc readyFirst_nil fun hc => by simp [hello, Command.make, relayedCommands] at hc

theorem led_prefix (hl : ds = [] ∨ [hello] <+: ds) (hp : cs <+: ds) :
    cs = [] ∨ [hello] <+: cs := by
  rcases hl with rfl | hl
  · exact Or.inl (List.prefix_nil.mp hp)
  · rcases List.prefix_or_prefix_of_prefix hp hl with hshort | hlong
    · rcases List.prefix_cons_iff.mp hshort with hnil | ⟨rest, rfl, hrest⟩
      · exact Or.inl hnil
      · exact Or.inr (List.prefix_nil.mp hrest ▸ List.prefix_rfl)
    · exact Or.inr hlong

theorem ungreeted_handshake (hu : s.Ungreeted) : s.handshake ≠ none := by
  intro hnone
  simp [Ungreeted, hnone] at hu

theorem attached_of_handshake (hs : s.Tended) (hh : s.handshake ≠ none) :
    s.link.isAttached = true := by
  by_contra hd
  exact hh (hs (Bool.eq_false_iff.mpr hd)).2

theorem spoken_start (config : Config) (roots : List String) : Spoken [] (start config roots) where
  unlaunched := fun _ => ⟨rfl, rfl⟩
  unsaid := fun _ => ⟨rfl, rfl⟩
  greeted := nofun
  led := Or.inl rfl
  opened := nofun
  ready := fun _ => readyFirst_nil

/-- Where nothing is said and the link stays, the handshake may take its first step. -/
theorem Spoken.silent (hp : Spoken past s) (hun : t.Unlaunched → s.Unlaunched)
    (hw : words (past ++ [h]) t = words past s) (hl : t.link = s.link)
    (hh : t.handshake = s.handshake ∨ s.Ungreeted ∧ t.Ungreeted) : Spoken (past ++ [h]) t := by
  rcases hh with hh | ⟨hs, ht⟩
  · have hungreeted : t.Ungreeted → s.Ungreeted := by
      intro hu
      simpa [Ungreeted, hh] using hu
    refine ⟨?_, ?_, ?_, hw ▸ hp.led, ?_, fun hg => hw ▸ hp.ready hg.of_snoc⟩
    · intro hu
      rw [hh, hl]
      exact hp.unlaunched (hun hu)
    · intro hu
      rw [hw, hl]
      exact hp.unsaid (hu.imp hun hungreeted)
    · intro program deadline hack
      rw [hw, hl]
      exact hp.greeted program deadline (hh ▸ hack)
    · intro hnone ha
      obtain ⟨hled, hintroduced⟩ := hp.opened (hh ▸ hnone) (hl ▸ ha)
      exact ⟨hw ▸ hled, fun hg => hw ▸ hintroduced hg.of_snoc⟩
  · have hnone : s.handshake ≠ none := ungreeted_handshake hs
    refine ⟨?_, ?_, ?_, hw ▸ hp.led, ?_, fun hg => hw ▸ hp.ready hg.of_snoc⟩
    · exact fun hu => absurd (hp.unlaunched (hun hu)).1 hnone
    · intro _
      rw [hw, hl]
      exact hp.unsaid (Or.inr hs)
    · intro program deadline hack
      simp [Ungreeted, hack] at ht
    · exact fun hother => absurd hother (ungreeted_handshake ht)

theorem Spoken.cut (hp : Spoken past s) (hun : t.Unlaunched → s.Unlaunched)
    (hw : words (past ++ [h]) t <+: words past s) (hl : t.link = s.link.detach)
    (hh : t.handshake = none) : Spoken (past ++ [h]) t := by
  refine ⟨fun _ => ⟨hh, hl ▸ rfl⟩, ?_, ?_, led_prefix hp.led hw, ?_, ?_⟩
  · intro hu
    have hunlaunched : t.Unlaunched := hu.resolve_right fun hu => ungreeted_handshake hu hh
    obtain ⟨hnone, hnumber⟩ := hp.unsaid (Or.inl (hun hunlaunched))
    exact ⟨List.prefix_nil.mp (hnone ▸ hw), hl ▸ hnumber⟩
  · intro program deadline hack
    cases hh.symm.trans hack
  · intro _ ha
    simp [hl, Link.detach, Link.isAttached] at ha
  · exact fun hg => readyFirst_prefix (hp.ready hg.of_snoc) hw

/-- A debuggee that was just started has heard nothing. -/
theorem spoken_began (hlaunched : ¬ t.Unlaunched) (hu : t.Ungreeted) (hw : words past t = [])
    (hn : t.link.nextSeq = 1) : Spoken past t where
  unlaunched := fun ht => absurd ht hlaunched
  unsaid := fun _ => ⟨hw, hn⟩
  greeted := by
    intro program deadline hack
    simp [Ungreeted, hack] at hu
  led := Or.inl hw
  opened := fun hnone => absurd hnone (ungreeted_handshake hu)
  ready := fun _ => hw ▸ readyFirst_nil

/-- Once the handshake is over the debuggee was greeted. -/
theorem spoken_opened (hlaunched : ¬ t.Unlaunched) (hh : t.handshake = none)
    (hled : [hello] <+: words past t) (hi : Unfailing past → Introduced (words past t))
    (hr : Unfailing past → ReadyFirst (words past t)) : Spoken past t where
  unlaunched := fun ht => absurd ht hlaunched
  unsaid := by
    rintro (ht | ht)
    · exact absurd ht hlaunched
    · exact absurd hh (ungreeted_handshake ht)
  greeted := by
    intro program deadline hack
    cases hh.symm.trans hack
  led := Or.inr hled
  opened := fun _ _ => ⟨hled, hi⟩
  ready := hr

theorem spoken_greeted (hlaunched : ¬ t.Unlaunched) {program : String} {deadline : Nat}
    (hh : t.handshake = some (.acknowledging program deadline)) (hw : words past t = [hello])
    (hq : t.link.queued = []) : Spoken past t where
  unlaunched := fun ht => absurd ht hlaunched
  unsaid := by
    rintro (ht | ht)
    · exact absurd ht hlaunched
    · simp [Ungreeted, hh] at ht
  greeted := fun _ _ _ => ⟨hw, hq⟩
  led := Or.inr (hw ▸ List.prefix_rfl)
  opened := fun hnone => by cases hh.symm.trans hnone
  ready := fun _ => hw ▸ readyFirst_hello

end Steps

/-- What the handshake sends at first is the first that is said. -/
theorem Spoken.greets (hp : Spoken past s) (hs : s.Tended) {program : String} {deadline : Nat}
    (hmove : move = .handshake) (hg : s.greeting? env = some ("initialize", .record []))
    (hu : s.Ungreeted) (hun : t.Unlaunched → s.Unlaunched)
    (hl : t.link = (s.sending env "initialize" (.record [])).link)
    (hw : words (past ++ [⟨s, env, move⟩]) t = sent past ++
      ((s.link.send env.accepts "initialize" (.record [])).written ++ t.link.queued))
    (hh : t.handshake = if s.link.isAttached && env.accepts then
      some (.acknowledging program deadline) else none) :
    Spoken (past ++ [⟨s, env, move⟩]) t := by
  have ha : s.link.isAttached = true := attached_of_handshake hs (ungreeted_handshake hu)
  obtain ⟨hnone, hnumber⟩ := hp.unsaid (Or.inr hu)
  obtain ⟨hsent, hqueued⟩ := List.append_eq_nil_iff.mp hnone
  have hsaid : words (past ++ [⟨s, env, move⟩]) t = [hello] := by
    rw [hw, hl, hsent, sending, s.link.send_unqueued _ _ _ ha hqueued, hnumber]
    rfl
  have hlaunched : ¬ t.Unlaunched := by
    intro ht
    exact ungreeted_handshake hu (hp.unlaunched (hun ht)).1
  cases hacc : env.accepts with
  | true =>
    rw [hacc, ha] at hh
    refine spoken_greeted hlaunched hh hsaid ?_
    rw [hl, sending, hacc]
    exact (s.link.send_through _ _ ha).2
  | false =>
    rw [hacc, Bool.and_false] at hh
    have hfails : Happening.FailsToGreet ⟨s, env, move⟩ := by
      refine ⟨hmove, .record [], .brokenPipe, hg, ?_⟩
      rcases s.link.send_cases env.accepts "initialize" (.record []) with
        ⟨_, hyes, _⟩ | ⟨_, _, _, hsend⟩ | ⟨hd, _⟩
      · cases hacc.symm.trans hyes
      · exact congrArg Sending.result hsend
      · cases ha.symm.trans hd
    refine spoken_opened hlaunched hh (hsaid ▸ List.prefix_rfl) ?_ fun _ => hsaid ▸ readyFirst_hello
    exact fun hg => absurd hfails (hg _ (List.mem_append_right _ List.mem_cons_self))

/-- What it sends then comes right after that. -/
theorem Spoken.launches (hp : Spoken past s) (hs : s.Tended) {h : Happening} {program : String}
    {deadline : Nat} {arguments : Json}
    (hack : s.handshake = some (.acknowledging program deadline))
    (hun : t.Unlaunched → s.Unlaunched) (hl : t.link = (s.sending env "launch" arguments).link)
    (hw : words (past ++ [h]) t = sent past ++
      ((s.link.send env.accepts "launch" arguments).written ++ t.link.queued))
    (hh : t.handshake = none) : Spoken (past ++ [h]) t := by
  have ha : s.link.isAttached = true := attached_of_handshake hs (by simp [hack])
  obtain ⟨hgreeted, hqueued⟩ := hp.greeted program deadline hack
  rw [words, hqueued, List.append_nil] at hgreeted
  have hsaid : words (past ++ [h]) t =
      [hello] ++ [.make s.link.nextSeq "launch" arguments] := by
    rw [hw, hl, hgreeted, sending, s.link.send_unqueued _ _ _ ha hqueued]
  have hlaunched : ¬ t.Unlaunched := by
    intro ht
    cases hack.symm.trans (hp.unlaunched (hun ht)).1
  refine spoken_opened hlaunched hh (hsaid ▸ List.prefix_append ..) ?_ ?_
  · intro _
    rw [hsaid]
    exact ⟨⟨hello, List.mem_cons_self, rfl⟩, _, List.mem_append_right _ List.mem_cons_self, rfl⟩
  · intro _
    rw [hsaid]
    exact readyFirst_snoc readyFirst_hello fun hc => by simp [Command.make, relayedCommands] at hc

/-- A request that is passed on after the handshake comes behind it. -/
theorem Spoken.relays (hp : Spoken past s) {h : Happening} {command : String} {arguments : Json}
    (ha : s.link.isAttached = true) (hnone : s.handshake = none)
    (hun : t.Unlaunched → s.Unlaunched) (hh : t.handshake = none)
    (hl : t.link = (s.sending env command arguments).link)
    (hw : words (past ++ [h]) t = sent past ++
      ((s.link.send env.accepts command arguments).written ++ t.link.queued)) :
    Spoken (past ++ [h]) t := by
  obtain ⟨hled, hintroduced⟩ := hp.opened hnone ha
  have hlaunched : ¬ t.Unlaunched := by
    intro ht
    cases ha.symm.trans (hp.unlaunched (hun ht)).2
  rw [hl, sending] at hw
  rcases s.link.send_order env.accepts command arguments with ho | ho
  · rw [ho] at hw
    have hsame : words (past ++ [h]) t = words past s := hw
    exact spoken_opened hlaunched hh (hsame ▸ hled) (fun hg => hsame ▸ hintroduced hg.of_snoc)
      fun hg => hsame ▸ hp.ready hg.of_snoc
  · rw [ho, ← List.append_assoc] at hw
    have hgrown : words past s <+: words (past ++ [h]) t := hw ▸ List.prefix_append ..
    refine spoken_opened hlaunched hh (hled.trans hgrown) ?_ ?_
    · exact fun hg => introduced_grow (hintroduced hg.of_snoc) hgrown
    · intro hg
      rw [hw]
      exact readyFirst_snoc (hp.ready hg.of_snoc) fun _ => hintroduced hg.of_snoc

/-- As long as no request hurries it, the handshake is spoken first. -/
theorem step_spoken (hs : s.Tended) (hp : Spoken past s) (env : Environment) (move : Move)
    (hu : ¬ Happening.Hurried ⟨s, env, move⟩) :
    Spoken (past ++ [⟨s, env, move⟩]) (s.step env move).1 := by
  have h := s.step_transition env move
  have hw := words_step past s env move
  have hun := h.unlaunched
  cases h.speech hu with
  | silent hcs hl hh =>
    rw [hcs, hl] at hw
    exact hp.silent hun hw hl hh
  | cut hcs hl hh =>
    rw [hcs, hl] at hw
    refine hp.cut hun ?_ hl hh
    rw [hw]
    exact (List.prefix_append_right_inj _).mpr List.nil_prefix
  | began hcs hunlaunched hlaunched hl hungreeted =>
    obtain ⟨hnone, hnumber⟩ := hp.unsaid (Or.inl hunlaunched)
    rw [hcs, hl, (List.append_eq_nil_iff.mp hnone).1] at hw
    exact spoken_began hlaunched hungreeted hw (hl ▸ hnumber)
  | relayed command arguments ha hnone hh hl hcs =>
    rw [hcs] at hw
    exact hp.relays ha hnone hun hh hl hw
  | greeted program deadline hmove hgreeting hungreeted hl hcs hh =>
    rw [hcs] at hw
    exact hp.greets hs hmove hgreeting hungreeted hun hl hw hh
  | launched program deadline arguments hack hl hcs hh =>
    rw [hcs] at hw
    exact hp.launches hs hack hun hl hw hh

theorem spoken_after (config : Config) (roots : List String) (course : Course)
    (hu : ∀ h ∈ (start config roots).history course, ¬ h.Hurried) :
    Spoken ((start config roots).history course) ((start config roots).after course) := by
  have hrun := history_induction (P := fun past s =>
    s.Tended ∧ ((∀ h ∈ past, ¬ h.Hurried) → Spoken past s))
    ⟨fun _ => ⟨rfl, rfl⟩, fun _ => spoken_start config roots⟩ ?_ course
  · exact hrun.2 hu
  · rintro past s env move ⟨hs, hp⟩
    refine ⟨hs.transition (s.step_transition env move), ?_⟩
    intro hall
    rw [List.forall_mem_append] at hall
    exact step_spoken hs (hp hall.1) env move (hall.2 _ List.mem_cons_self)

theorem ledByInitialize_of_words (hn : Numbered past s)
    (hl : words past s = [] ∨ [hello] <+: words past s) : LedByInitialize (sent past) := by
  intro c rest hsent
  have hwords : words past s = c :: (rest ++ s.link.queued) := by
    rw [words, hsent]
    rfl
  rw [hwords] at hl
  have hgrowing := hn.growing
  rw [hwords, List.pairwise_cons] at hgrowing
  rcases hl with hnil | hled
  · cases hnil
  · obtain ⟨rfl, _⟩ := List.cons_prefix_cons.mp hled
    exact ⟨rfl, rfl, fun d hd => hgrowing.1 d (List.mem_append_left _ hd)⟩

end Session
end DebugAdapter
