import DebugAdapter.Proofs.Session.Transition

namespace DebugAdapter

open Frontend

def Effect.announcements (effects : List Effect) : List Event :=
  effects.filterMap fun
    | .send (.event e) => if e.event = "exited" ∨ e.event = "terminated" then some e else none
    | _ => none

namespace Session

open Effect

/-- True if the front end ends the session, or the exit of the debuggee. -/
def Move.cutsOff : Move → Bool
  | .request r => r.command = "disconnect" ∨ r.command = "terminate"
  | .report (.exited _) => true
  | _ => false

/-- The debuggee's word that it is over ends the session too. -/
def Move.ends : Move → Bool
  | .report (.record (.event name _)) => name = "terminated"
  | move => move.cutsOff

def Move.announcement : Move → List Event
  | .report (.exited info) => (info.code.map Event.exited).toList ++ [.terminated]
  | _ => [.terminated]

/-- What the front end is told of the end in a course: what the first move says that brings it. -/
def announcementOf (course : Course) : List Event :=
  match course.find? (·.2.ends) with
  | none => []
  | some (_, move) => move.announcement

theorem announcements_picks : Picks announcements :=
  picks_filterMap fun _ => rfl

theorem announcements_farewell (s : Session) :
    announcements s.farewell = if s.endAnnounced then [] else [Event.terminated] := by
  unfold farewell
  split <;> rfl

/-- The end is announced by a move from `s` to `t` if it brings it and that was not done before. -/
structure Announces (s t : Session) (move : Move) (es : List Effect) : Prop where
  told : announcements es = if move.ends ∧ s.endAnnounced = false then move.announcement else []
  latched : t.endAnnounced = (s.endAnnounced || move.ends)

variable {env : Environment} {s t : Session} {move : Move} {es : List Effect}

theorem Announces.of_silent (hmove : move.ends = false) (hend : t.endAnnounced = s.endAnnounced)
    (hes : announcements es = []) : s.Announces t move es where
  told := by simp [hmove, hes]
  latched := by simp [hmove, hend]

theorem Move.ends_request {r : Request} (hd : r.command ≠ "disconnect")
    (ht : r.command ≠ "terminate") : (Move.request r).ends = false := by
  simp [ends, cutsOff, hd, ht]

/-- Every transition announces the end if it is the first to bring it. -/
theorem Transition.announces (h : Transition env s move t es) : s.Announces t move es := by
  cases h with
  -- Three rules end a session. By the others nothing is said of the end.
  | disconnected r hr =>
    have hmove : (Move.request r).ends = true := by simpa [Move.ends, Move.cutsOff] using hr
    have htold : announcements ((if s.hasProcess then [.stop] else []) ++
        respond (.ok r none) :: s.farewell) = announcements s.farewell := by
      split <;> rfl
    refine ⟨?_, by simp [hmove, finished]⟩
    rw [htold, announcements_farewell]
    cases s.endAnnounced <;> simp [hmove, Move.announcement]
  | ended body =>
    have hmove : (Move.report (.record (.event "terminated" body))).ends = true := rfl
    refine ⟨?_, by simp [hmove]⟩
    rw [announcements_farewell]
    cases s.endAnnounced <;> simp [hmove, Move.announcement]
  | exited info =>
    have hmove : (Move.report (.exited info)).ends = true := rfl
    refine ⟨?_, by simp [hmove, finished]⟩
    rw [hmove, Move.announcement]
    cases s.endAnnounced <;> cases info.code <;> rfl
  | greeted r hr | refused r e hr | started r program spec hr | unasked r hr | threadsNamed r hr
  | notStarted r program spec failure hr =>
    exact .of_silent (Move.ends_request (by simp [hr]) (by simp [hr])) rfl rfl
  | breakpointsSet r hr =>
    refine .of_silent (Move.ends_request (by simp [hr]) (by simp [hr])) rfl ?_
    rw [announcements_picks.append, pick_writes announcements_picks fun _ => rfl]
    rfl
  | forwarded r hr =>
    have hmove : (Move.request r).ends = false := by
      simp only [plainCommands, List.mem_cons, List.not_mem_nil, or_false] at hr
      rcases hr with hr | hr | hr | hr | hr | hr <;>
        exact Move.ends_request (by simp [hr]) (by simp [hr])
    refine .of_silent hmove rfl ?_
    rw [announcements_picks.append, pick_writes announcements_picks fun _ => rfl]
    rfl
  | deferred r hd =>
    have hr := s.defers_command env hd
    refine .of_silent (Move.ends_request (by simp [hr]) (by simp [hr])) rfl ?_
    exact pick_writes announcements_picks (fun _ => rfl) ..
  | notUnderstood r hr =>
    have hmove : (Move.request r).ends = false := by
      refine Move.ends_request ?_ ?_ <;> (intro he; simp [he] at hr)
    exact .of_silent hmove rfl rfl
  | ignored name body hn =>
    exact .of_silent (by simp_all [Move.ends]) rfl rfl
  | answered index =>
    refine .of_silent rfl rfl ?_
    cases s.released[index]? <;> rfl
  | shutDown =>
    refine .of_silent rfl rfl ?_
    split <;> rfl
  | greetingSent | launchSent =>
    exact .of_silent rfl rfl (pick_writes announcements_picks (fun _ => rfl) ..)
  | _ => exact .of_silent rfl rfl rfl

theorem step_announces (s : Session) (env : Environment) (move : Move) :
    s.Announces (s.step env move).1 move (s.step env move).2 := by
  have h := (s.step_transition env move).announces
  exact ⟨pick_outward announcements_picks (s.step env move).2 ▸ h.told, h.latched⟩

theorem announcements_after_end (hs : s.endAnnounced = true) (course : Course) :
    announcements (s.effects course) = [] := by
  induction course generalizing s with
  | nil => rfl
  | cons happened course ih =>
    obtain ⟨env, move⟩ := happened
    have h := s.step_announces env move
    have hnext : (s.step env move).1.endAnnounced = true := by simp [h.latched, hs]
    rw [effects_cons, announcements_picks.append, h.told, ih hnext]
    simp [hs]

/-- Over a whole course the end is announced by the first thing that brings it. -/
theorem announcements_course (hs : s.endAnnounced = false) (course : Course) :
    announcements (s.effects course) = announcementOf course := by
  induction course generalizing s with
  | nil => rfl
  | cons happened course ih =>
    obtain ⟨env, move⟩ := happened
    have h := s.step_announces env move
    rw [effects_cons, announcements_picks.append, h.told]
    cases hmove : move.ends with
    | true =>
      have hnext : (s.step env move).1.endAnnounced = true := by simp [h.latched, hmove]
      -- The latch is set now, so the rest of the course adds nothing.
      rw [announcements_after_end hnext]
      simp [hs, announcementOf, hmove]
    | false =>
      have hnext : (s.step env move).1.endAnnounced = false := by simp [h.latched, hmove, hs]
      rw [ih hnext]
      simp [announcementOf, hmove]

/-- The end was announced in the course exactly if a move has brought it. -/
theorem announced_course (s : Session) (course : Course) :
    (s.after course).endAnnounced = (s.endAnnounced || course.any (·.2.ends)) := by
  induction course generalizing s with
  | nil => simp
  | cons happened course ih =>
    obtain ⟨env, move⟩ := happened
    rw [after_cons, ih, (s.step_announces env move).latched, List.any_cons, Bool.or_assoc]

theorem announcement_names (move : Move) :
    move.announcement.map Event.event = ["terminated"] ∨
      move.announcement.map Event.event = ["exited", "terminated"] := by
  unfold Move.announcement
  split
  · rename_i info
    cases info.code
    · exact Or.inl rfl
    · exact Or.inr rfl
  · exact Or.inl rfl

theorem announcementOf_names (course : Course) :
    let names := (announcementOf course).map Event.event
    (course.any (·.2.ends) = false ∧ names = []) ∨
      (course.any (·.2.ends) = true ∧
        (names = ["terminated"] ∨ names = ["exited", "terminated"])) := by
  intro names
  cases hf : course.find? (·.2.ends) with
  | none =>
    left
    refine ⟨?_, by simp [names, announcementOf, hf]⟩
    simpa using hf
  | some happened =>
    right
    have hends : happened.2.ends = true := by simpa using List.find?_some hf
    have hany : course.any (·.2.ends) = true :=
      List.any_eq_true.mpr ⟨happened, List.mem_of_find?_eq_some hf, hends⟩
    have hnames : names = happened.2.announcement.map Event.event := by
      simp [names, announcementOf, hf]
    exact ⟨hany, hnames ▸ announcement_names happened.2⟩

/-- Only an exit that ends the session is told, and with a code that is known. -/
theorem Announces.exited (h : s.Announces t move es) {e : Event} (he : e ∈ announcements es)
    (hname : e.event = "exited") :
    ∃ info code, move = .report (.exited info) ∧ info.code = some code ∧
      s.endAnnounced = false := by
  rw [h.told] at he
  split at he
  · rename_i hends
    unfold Move.announcement at he
    split at he
    · rename_i info
      cases hc : info.code with
      | none => simp [hc] at he; simp [he, Event.terminated] at hname
      | some code => exact ⟨info, code, rfl, hc, hends.2⟩
    · simp only [List.mem_singleton] at he
      simp [he, Event.terminated] at hname
  · simp at he

theorem messages_exit (env : Environment) {info : Debuggee.ExitInfo} {code : Int}
    (hs : s.endAnnounced = false) (hc : info.code = some code) :
    messages (s.step env (.report (.exited info))).2 =
      [.event (.exited code), .event .terminated] := by
  have h := s.step_transition env (.report (.exited info))
  rw [← pick_outward messages_picks]
  generalize (s.step env (.report (.exited info))).1 = t at h
  generalize outward (s.step env (.report (.exited info))).2 = es at h ⊢
  cases h
  simp [hs, hc]
  rfl

/-- The end is announced once: by whatever brings it first, and by nothing before or after that. An
exit code is told only then, and the announcement of the end is what the session says next. -/
theorem end_announced_once (config : Config) (roots : List String) (course : Course) :
    let s := start config roots
    let names := (announcements (s.effects course)).map Event.event
    announcements (s.effects course) = announcementOf course ∧
    names ∈ [[], ["terminated"], ["exited", "terminated"]] ∧
    names.count "terminated" = (if course.any (·.2.ends) then 1 else 0) ∧
    Throughout (fun before h => ∀ e ∈ announcements h.effects, e.event = "exited" →
      ∃ info code, h.move = .report (.exited info) ∧ info.code = some code ∧
        messages h.effects = [.event (.exited code), .event .terminated] ∧
        announcements (before.flatMap Happening.effects) = []) (s.history course) := by
  intro s names
  have htold : announcements (s.effects course) = announcementOf course :=
    announcements_course rfl course
  have hnames := announcementOf_names course
  simp only [← htold] at hnames
  refine ⟨htold, ?_, ?_, ?_⟩
  · rcases hnames with ⟨_, hn⟩ | ⟨_, hn | hn⟩ <;> simp [names, hn]
  · rcases hnames with ⟨ha, hn⟩ | ⟨ha, hn | hn⟩ <;> simp [names, hn, ha]
  · intro before h rest hsplit e he hname
    obtain ⟨first, hbefore, hsession⟩ := history_split hsplit
    obtain ⟨info, code, hmove, hc, hopen⟩ :=
      (h.session.step_announces h.env h.move).exited he hname
    refine ⟨info, code, hmove, hc, ?_, ?_⟩
    · unfold Happening.effects
      rw [hmove]
      exact messages_exit h.env hopen hc
    · have hany : first.any (·.2.ends) = false := by
        rw [← hsession, announced_course, Bool.or_eq_false_iff] at hopen
        exact hopen.2
      rw [← hbefore, ← effects_history, announcements_course rfl]
      rcases announcementOf_names first with ⟨_, hn⟩ | ⟨ha, _⟩
      · exact List.map_eq_nil_iff.mp hn
      · simp [hany] at ha

/-- The debuggee exits, and then says that it is over. -/
theorem exit_code_told_first :
    let s := start {} ["/w"]
    let exit : Happening := ⟨s.after tracing, willing 700, .report (.exited { code := some 3 })⟩
    Event.exited 3 ∈ announcements exit.effects ∧
      messages exit.effects = [.event (.exited 3), .event .terminated] ∧
      announcements ((s.history tracing).flatMap Happening.effects) = [] := by
  intro s exit
  let word : Environment × Move := (willing 800, .report (.record (.event "terminated" .null)))
  have he : Event.exited 3 ∈ announcements exit.effects := List.mem_cons_self
  obtain ⟨info, code, hmove, hc, hmessages, hbefore⟩ :=
    (end_announced_once {} ["/w"] (tracing ++ [(exit.env, exit.move), word])).2.2.2
      (s.history tracing) exit _ rfl _ he rfl
  have hinfo : info = { code := some 3 } := by
    injection hmove with hreport
    injection hreport with hinfo
    exact hinfo.symm
  obtain rfl : code = 3 := by simpa [hinfo] using hc.symm
  exact ⟨he, hmessages, hbefore⟩

end Session
end DebugAdapter
