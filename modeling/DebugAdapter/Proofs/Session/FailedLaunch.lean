import DebugAdapter.Proofs.Json.Supply
import DebugAdapter.Proofs.Session.Phases
import DebugAdapter.Proofs.Session.Responses
import DebugAdapter.Proofs.Workspace

namespace DebugAdapter.Session

open Frontend Effect

def specFor (s : Session) (root program : String) : Debuggee.LaunchSpec where
  executable := Path.join root s.config.executable
  args := [s.config.debugServerFlag, program]
  cwd := root

/-- Why a launch request fails, with the number that the front end is told: the session is past its
launch, the request names no program, there is no root to run it in, or the system does not start
it. -/
inductive FailsWith (env : Environment) (s : Session) (r : Request) : Nat → Prop
  | launched : s.phase = .launching ∨ s.phase = .running → FailsWith env s r 2004
  | ended : s.phase = .terminating ∨ s.phase = .terminated → FailsWith env s r 2004
  | noProgram : s.Unlaunched →
      (∀ program, r.arguments.field? "program" = some (.string program) → program = "") →
      FailsWith env s r 2001
  | noRoot (program : String) : s.Unlaunched →
      r.arguments.field? "program" = some (.string program) → program ≠ "" → s.roots = [] →
      FailsWith env s r 2001
  | unavailable (program root : String) (failure : Debuggee.SpawnFailure) : s.Unlaunched →
      r.arguments.field? "program" = some (.string program) → program ≠ "" →
      Workspace.resolve s.roots program = some root →
      env.spawn (s.specFor root program) = some failure →
      failure = .notFound ∨ failure = .permissionDenied → FailsWith env s r 2002
  | broken (program root reason : String) : s.Unlaunched →
      r.arguments.field? "program" = some (.string program) → program ≠ "" →
      Workspace.resolve s.roots program = some root →
      env.spawn (s.specFor root program) = some (.other reason) → FailsWith env s r 2003

def failure? (env : Environment) (s : Session) (r : Request) : Option SessionError :=
  match s.launchSpec r with
  | .error e => some e
  | .ok (_, spec) => (env.spawn spec).map fun failure => .launch (.ofFailure spec.executable failure)

variable {env : Environment} {s : Session} {r : Request}

theorem program_some_iff {program : String} : program? r = some program ↔
    r.arguments.field? "program" = some (.string program) ∧ program ≠ "" := by
  rw [program?, Json.filter_read_iff Json.string_read, decide_eq_true_eq, and_true]

theorem program_none_iff : program? r = none ↔
    ∀ program, r.arguments.field? "program" = some (.string program) → program = "" := by
  rw [Option.eq_none_iff_forall_ne_some]
  apply forall_congr'
  intro program
  rw [ne_eq, program_some_iff, not_and, not_not]

theorem launchSpec_unlaunched_eq (hu : s.Unlaunched) : s.launchSpec r =
    match program? r with
    | none => .error .missingProgram
    | some program =>
      match Workspace.resolve s.roots program with
      | none => .error .noWorkspace
      | some root => .ok (program, s.specFor root program) := by
  unfold launchSpec
  rcases hu with hp | hp <;> rw [hp] <;> rfl

/-- Whoever has a reason runs into what has its number. -/
theorem FailsWith.failure {code : Nat} (h : FailsWith env s r code) :
    ∃ e, s.failure? env r = some e ∧ e.code = code := by
  cases h with
  | launched hp =>
    refine ⟨.alreadyLaunched, ?_, rfl⟩
    rcases hp with hp | hp <;> simp [failure?, launchSpec, hp]
  | ended hp =>
    refine ⟨.terminated, ?_, rfl⟩
    rcases hp with hp | hp <;> simp [failure?, launchSpec, hp]
  | noProgram hu hnone =>
    refine ⟨.missingProgram, ?_, rfl⟩
    simp [failure?, launchSpec_unlaunched_eq hu, program_none_iff.mpr hnone]
  | noRoot program hu hfield hne hroots =>
    refine ⟨.noWorkspace, ?_, rfl⟩
    simp [failure?, launchSpec_unlaunched_eq hu, program_some_iff.mpr ⟨hfield, hne⟩,
      Workspace.resolve_none_iff.mpr hroots]
  | unavailable program root failure hu hfield hne hroot hspawn hkind =>
    refine ⟨.launch (.ofFailure (s.specFor root program).executable failure), ?_, ?_⟩
    · simp [failure?, launchSpec_unlaunched_eq hu, program_some_iff.mpr ⟨hfield, hne⟩, hroot,
        hspawn]
    · rcases hkind with rfl | rfl <;> rfl
  | broken program root reason hu hfield hne hroot hspawn =>
    refine ⟨.launch (.spawn (s.specFor root program).executable reason), ?_, rfl⟩
    simp [failure?, launchSpec_unlaunched_eq hu, program_some_iff.mpr ⟨hfield, hne⟩, hroot,
      hspawn, Debuggee.LaunchError.ofFailure]

def bare (now : Nat) : Environment :=
  { willing now with spawn := fun _ => some .notFound }

end DebugAdapter.Session
