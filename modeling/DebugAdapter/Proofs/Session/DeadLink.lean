import DebugAdapter.Proofs.Session.Desk
import DebugAdapter.Proofs.Session.Endings
import DebugAdapter.Proofs.Session.Responses

namespace DebugAdapter.Session

open Frontend Effect

variable {s : Session} {r : Request}

theorem forwarded_cases (hf : (forwarded? r).isSome = true) :
    r.command = "setBreakpoints" ∨ r.command ∈ plainCommands ∨ r.command = "stackTrace" := by
  by_contra hr
  rw [not_or, not_or] at hr
  obtain ⟨hb, hp, ht⟩ := hr
  simp [forwarded_of_command hb hp ht] at hf

/-- Nothing comes to wait for a debuggee that there is no link to. -/
theorem step_unawaited (env : Environment) (hd : s.link.isAttached = false)
    (hp : s.pending.entries = []) (move : Move) :
    (s.step env move).1.pending.entries = [] := by
  have hk : s.pending.KeysUnique := by simp [Correlation.Table.KeysUnique, hp]
  apply List.eq_nil_iff_forall_not_mem.mpr
  intro e he
  rcases s.entry_origin env hk move he with hold | ⟨r, _, hdeferred, _⟩
  · simp [hp] at hold
  · simp [deferred_attached hdeferred] at hd

/-- Nothing is awaited of a debuggee that there is no link to. -/
theorem Severed.unawaited (hs : s.Severed) (hp : s.pending.entries = []) (later : Course) :
    (s.after later).pending.entries = [] := by
  have h := after_induction (P := fun t => t.Severed ∧ t.pending.entries = []) ⟨hs, hp⟩ ?_ later
  · exact h.2
  · intro t env move ⟨ht, hpending⟩
    exact ⟨(ht.transition (t.step_transition env move)).1,
      step_unawaited env ht.detached hpending move⟩

/-- What would be passed on is acknowledged even so, and a stack trace has no frames then. -/
theorem detached_answers (hd : s.link.isAttached = false) (env : Environment)
    (hf : (forwarded? r).isSome = true) :
    ∃ body, responses (s.step env (.request r)).2 = [.ok r body] ∧
      (r.command = "stackTrace" → body = some emptyStackTrace) := by
  have h := s.step_transition env (.request r)
  have hwrites := pick_writes responses_picks (fun _ => rfl) env s
  have hcases := forwarded_cases hf
  rw [← pick_outward responses_picks]
  generalize (s.step env (.request r)).1 = t at h
  generalize outward (s.step env (.request r)).2 = es at h ⊢
  cases h with
  | breakpointsSet _ hr =>
    refine ⟨some (.object [("breakpoints",
      .array ((requestedBreakpoints r).map verifiedBreakpoint))]), ?_, by simp [hr]⟩
    rw [responses_picks.append, hwrites]
    rfl
  | forwarded _ hr =>
    refine ⟨none, ?_, by rintro ht; simp [ht, plainCommands] at hr⟩
    rw [responses_picks.append, hwrites]
    rfl
  | unasked => exact ⟨some emptyStackTrace, rfl, fun _ => rfl⟩
  | deferred _ hdeferred => simp [deferred_attached hdeferred] at hd
  -- The other requests are not passed on.
  | greeted _ hr | refused _ _ hr | notStarted _ _ _ _ hr | started _ _ _ hr | threadsNamed _ hr =>
    simp [hr, plainCommands] at hcases
  | disconnected _ hr => rcases hr with hr | hr <;> simp [hr, plainCommands] at hcases
  | notUnderstood _ hr => rcases hcases with hc | hc | hc <;> simp [hc] at hr

/-- After the front end or the exit of the debuggee has ended the session no handshake is left, and
even one that is still under way brings nothing more to the debuggee. No command is written again, no
stack trace waits again, and each command that would be passed on is answered at once. -/
theorem link_stays_dead (config : Config) (roots : List String) (first : Course)
    (env : Environment) (move : Move) (hm : move.cutsOff = true) :
    let s := (((start config roots).after first).step env move).1
    s.handshake = none ∧ ∀ (left : Option Handshake) (later : Course),
      let t := { s with handshake := left }
      commands (t.effects later) = [] ∧ (t.after later).pending.entries = [] ∧
      ∀ env r, (forwarded? r).isSome = true →
        ∃ body, responses ((t.after later).step env (.request r)).2 = [.ok r body] ∧
          (r.command = "stackTrace" → body = some emptyStackTrace) := by
  intro s
  have hfinished : s = ((start config roots).after first).finished := step_cutsOff _ env hm
  have hcut : s.CutOff := hfinished ▸ finished_cutOff _
  have hpending : s.pending.entries = [] := by
    rw [hfinished]
    rfl
  refine ⟨hcut.unsettled, ?_⟩
  intro left later t
  have ht : t.Severed := ⟨hcut.terminated, hcut.detached⟩
  refine ⟨ht.silent later, ht.unawaited hpending later, ?_⟩
  intro env r hf
  exact detached_answers (ht.after later).detached env hf

/-- The debuggee exits before it is told to launch the program, and a handshake that does not know of
it goes on. The front end asks for another launch and for stack traces. -/
theorem handshake_outlives_exit :
    let s := (((start {} ["/w"]).after (tracing.take 3)).step (willing 550) (.report (.exited {}))).1
    let t := { s with handshake := some (.acknowledging "/w/a" 600) }
    let again : Move := .request
      { seq := 3, command := "launch", arguments := .record [("program", .string "/w/b")] }
    let later : Course := [(willing 600, .handshake), (willing 600, again),
      (willing 600, .request (traceRequest 4))]
    Move.cutsOff (.report (.exited {})) = true ∧ commands (t.effects later) = [] ∧
      (t.after later).pending.entries = [] ∧
      responses ((t.after later).step (willing 700) (.request (traceRequest 5))).2 =
        [.ok (traceRequest 5) (some emptyStackTrace)] := by
  intro s t again later
  have hm : Move.cutsOff (.report (.exited {})) = true := rfl
  obtain ⟨_, hdead⟩ := link_stays_dead {} ["/w"] (tracing.take 3) (willing 550) _ hm
  obtain ⟨hsilent, hnone, hanswered⟩ := hdead (some (.acknowledging "/w/a" 600)) later
  obtain ⟨body, hbody, hempty⟩ := hanswered (willing 700) (traceRequest 5) rfl
  rw [hempty rfl] at hbody
  exact ⟨hm, hsilent, hnone, hbody⟩

end DebugAdapter.Session
