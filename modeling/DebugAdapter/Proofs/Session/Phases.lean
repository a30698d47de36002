import DebugAdapter.Proofs.Session.Course
import DebugAdapter.Proofs.Session.Transition

namespace DebugAdapter

/-- The order in which a session goes through its phases. -/
def Phase.rank : Phase → Nat
  | idle => 0
  | initializing => 1
  | launching => 2
  | running => 3
  | terminating => 4
  | terminated => 5

/-- A phase in which a session stays between two moves. -/
def Phase.IsStable (p : Phase) : Prop :=
  p = idle ∨ p = initializing ∨ p = running ∨ p = terminated

/-- No phase comes after the last. -/
theorem Phase.eq_terminated {p : Phase} (hp : terminated.rank ≤ p.rank) : p = terminated := by
  cases p with
  | terminated => rfl
  | _ => simp [rank] at hp

def Effect.starts (effects : List Effect) : List Debuggee.LaunchSpec :=
  effects.filterMap fun
    | .spawn spec true => some spec
    | _ => none

namespace Session

open Frontend Effect

section Spawns

theorem launches_picks : Picks launches :=
  picks_filterMap fun _ => rfl

theorem starts_picks : Picks starts :=
  picks_filterMap fun _ => rfl

/-- What was started was tried to be started. -/
theorem starts_sublist (es : List Effect) : (starts es).Sublist (launches es) := by
  induction es with
  | nil => exact List.Sublist.refl _
  | cons e es ih =>
    cases e with
    | spawn spec started =>
      cases started with
      | true => exact ih.cons_cons spec
      | false => exact ih.cons spec
    | _ => exact ih

end Spawns

/-- What a move from `s` to `t` does to the phase, and what it starts. -/
structure Advances (s t : Session) (es : List Effect) : Prop where
  forward : s.phase.rank ≤ t.phase.rank
  stable : t.phase = s.phase ∨ t.phase.IsStable
  unlaunched : launches es ≠ [] → s.Unlaunched
  starts : starts es = [] ∨ t.phase = .running ∧ ∃ spec, starts es = [spec]

variable {env : Environment} {s t : Session} {move : Move} {es : List Effect}

theorem starts_of_no_launch (hl : launches es = []) : starts es = [] :=
  List.eq_nil_of_sublist_nil (hl ▸ starts_sublist es)

theorem Advances.of_same (hphase : t.phase = s.phase) (hl : launches es = []) :
    s.Advances t es :=
  ⟨hphase ▸ Nat.le_refl _, Or.inl hphase, fun h => absurd hl h, Or.inl (starts_of_no_launch hl)⟩

theorem Advances.of_end (hphase : t.phase = .terminated) (hl : launches es = []) :
    s.Advances t es where
  forward := by rw [hphase]; cases s.phase <;> decide
  stable := Or.inr (by simp [hphase, Phase.IsStable])
  unlaunched := fun h => absurd hl h
  starts := Or.inl (starts_of_no_launch hl)

/-- A transition takes the phase forward, and starts a debuggee only from the first phase. -/
theorem Transition.advances (h : Transition env s move t es) : s.Advances t es := by
  cases h with
  | greeted r hr =>
    by_cases hp : s.phase = .idle
    · refine ⟨?_, Or.inr ?_, fun h => absurd rfl h, Or.inl rfl⟩ <;>
        simp [hp, Phase.rank, Phase.IsStable]
    · exact .of_same (by simp [hp]) rfl
  | notStarted r program spec failure hr hu =>
    exact ⟨Nat.le_refl _, Or.inl rfl, fun _ => hu, Or.inl rfl⟩
  -- The only rule that starts anything, and it leads into a phase from which none does.
  | started r program spec hr hu =>
    refine ⟨?_, Or.inr (by simp [Phase.IsStable]), fun _ => hu, Or.inr ⟨rfl, spec, rfl⟩⟩
    rcases hu with hp | hp <;> simp [hp, Phase.rank]
  | disconnected r hr =>
    refine .of_end rfl ?_
    rw [launches_picks.append]
    split <;> exact pick_farewell launches_picks rfl s
  | ended body => exact .of_end rfl (pick_farewell launches_picks rfl s)
  | exited info =>
    refine .of_end rfl ?_
    cases s.endAnnounced <;> cases info.code <;> rfl
  | breakpointsSet r hr | forwarded r hr =>
    refine .of_same rfl ?_
    rw [launches_picks.append, pick_writes launches_picks fun _ => rfl]
    rfl
  | deferred | greetingSent | launchSent =>
    exact .of_same rfl (pick_writes launches_picks (fun _ => rfl) ..)
  | answered index =>
    refine .of_same rfl ?_
    cases s.released[index]? <;> rfl
  | shutDown =>
    refine .of_same rfl ?_
    split <;> rfl
  | _ => exact .of_same rfl rfl

theorem step_advances (s : Session) (env : Environment) (move : Move) :
    s.Advances (s.step env move).1 (s.step env move).2 := by
  have h := (s.step_transition env move).advances
  refine ⟨h.forward, h.stable, ?_, ?_⟩
  · rw [← pick_outward launches_picks]
    exact h.unlaunched
  · rw [← pick_outward starts_picks]
    exact h.starts

theorem rank_le_after (s : Session) (course : Course) :
    s.phase.rank ≤ (s.after course).phase.rank :=
  after_induction (P := fun t => s.phase.rank ≤ t.phase.rank) (Nat.le_refl _)
    (fun t env move h => Nat.le_trans h (t.step_advances env move).forward) course

theorem stable_after (hs : s.phase.IsStable) (course : Course) :
    (s.after course).phase.IsStable := by
  refine after_induction (P := fun t => t.phase.IsStable) hs (fun t env move h => ?_) course
  rcases (t.step_advances env move).stable with hsame | hstable
  · exact hsame ▸ h
  · exact hstable

/-- From the start of the debuggee on no other is tried. -/
theorem no_launch_after (hs : Phase.running.rank ≤ s.phase.rank) (course : Course) :
    launches (s.effects course) = [] := by
  induction course generalizing s with
  | nil => rfl
  | cons happened course ih =>
    obtain ⟨env, move⟩ := happened
    have h := s.step_advances env move
    have hfirst : launches (s.step env move).2 = [] := by
      by_contra hl
      rcases h.unlaunched hl with hp | hp <;> simp [hp, Phase.rank] at hs
    rw [effects_cons, launches_picks.append, hfirst, ih (Nat.le_trans hs h.forward),
      List.append_nil]

/-- A course starts one debuggee at most, and from then on it has run. -/
theorem starts_cases (s : Session) (course : Course) :
    starts (s.effects course) = [] ∨ (∃ spec, starts (s.effects course) = [spec]) ∧
      Phase.running.rank ≤ (s.after course).phase.rank := by
  induction course generalizing s with
  | nil => exact Or.inl rfl
  | cons happened course ih =>
    obtain ⟨env, move⟩ := happened
    rw [effects_cons, after_cons, starts_picks.append]
    rcases (s.step_advances env move).starts with hnone | ⟨hphase, spec, hone⟩
    · rw [hnone, List.nil_append]
      exact ih _
    · have hrank : Phase.running.rank ≤ (s.step env move).1.phase.rank :=
        Nat.le_of_eq (congrArg Phase.rank hphase.symm)
      rw [hone, starts_of_no_launch (no_launch_after hrank course)]
      exact Or.inr ⟨⟨spec, rfl⟩, Nat.le_trans hrank (rank_le_after _ course)⟩

/-- A session starts one debuggee at most. Once it has, or is over, it tries no other. It never goes
back to an earlier phase, so that its end is final. -/
theorem started_once_and_never_back (config : Config) (roots : List String)
    (first later : Course) :
    let s := start config roots
    let t := s.after first
    (starts (s.effects first)).length ≤ 1 ∧
    (starts (s.effects first) ≠ [] ∨ t.phase = .terminated → launches (t.effects later) = []) ∧
    t.phase.IsStable ∧ t.phase.rank ≤ (t.after later).phase.rank ∧
    (t.phase = .terminated → (t.after later).phase = .terminated) := by
  intro s t
  have hrank := t.rank_le_after later
  refine ⟨?_, ?_, stable_after (Or.inl rfl) first, hrank, ?_⟩
  · rcases s.starts_cases first with hnone | ⟨⟨spec, hone⟩, _⟩
    · simp [hnone]
    · simp [hone]
  · intro h
    refine no_launch_after ?_ later
    rcases h with hstarted | hended
    · exact ((s.starts_cases first).resolve_left hstarted).2
    · rw [hended]
      decide
  · intro hended
    rw [hended] at hrank
    exact Phase.eq_terminated hrank

/-- A second launch, while the debuggee runs and after its exit. -/
theorem launch_tried_once :
    let s := start {} ["/w"]
    let again : Move := .request
      { seq := 9, command := "launch", arguments := .record [("program", .string "/w/b")] }
    let later : Course :=
      [(willing 700, again), (willing 800, .report (.exited {})), (willing 900, again)]
    starts (s.effects tracing) ≠ [] ∧ launches ((s.after tracing).effects later) = [] := by
  intro s again later
  have hstarted : starts (s.effects tracing) ≠ [] := List.cons_ne_nil _ _
  exact ⟨hstarted,
    (started_once_and_never_back {} ["/w"] tracing later).2.1 (Or.inl hstarted)⟩

end Session
end DebugAdapter
