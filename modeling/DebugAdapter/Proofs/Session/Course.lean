import DebugAdapter.Session.Step
import Mathlib.Data.List.Induction

namespace DebugAdapter.Session

abbrev Course := List (Environment × Move)

def start (config : Config) (roots : List String) : Session :=
  { config, roots }

def after (s : Session) (course : Course) : Session :=
  (s.run course).1

def effects (s : Session) (course : Course) : List Effect :=
  (s.run course).2

def Reachable (s : Session) : Prop :=
  ∃ config roots course, s = (start config roots).after course

/-- Something that happened, and the session before it. -/
structure Happening where
  session : Session
  env : Environment
  move : Move

namespace Happening

def next (h : Happening) : Session :=
  (h.session.step h.env h.move).1

def effects (h : Happening) : List Effect :=
  (h.session.step h.env h.move).2

end Happening

/-- What happens in a course, with the session that each thing happens to. -/
def history : Session → Course → List Happening
  | _, [] => []
  | s, (env, move) :: course =>
    ⟨s, env, move⟩ :: history (s.step env move).1 course

def sent (past : List Happening) : List Debuggee.Command :=
  Effect.commands (past.flatMap Happening.effects)

variable {s : Session}

@[simp] theorem after_nil : s.after [] = s := rfl

@[simp] theorem effects_nil : s.effects [] = [] := rfl

@[simp] theorem after_cons (env : Environment) (move : Move) (course : Course) :
    s.after ((env, move) :: course) = (s.step env move).1.after course := rfl

@[simp] theorem effects_cons (env : Environment) (move : Move) (course : Course) :
    s.effects ((env, move) :: course) =
      (s.step env move).2 ++ (s.step env move).1.effects course := rfl

theorem after_append (first second : Course) :
    s.after (first ++ second) = (s.after first).after second := by
  induction first generalizing s with
  | nil => rfl
  | cons happened first ih => exact ih

theorem effects_history (s : Session) (course : Course) :
    s.effects course = (s.history course).flatMap Happening.effects := by
  induction course generalizing s with
  | nil => rfl
  | cons happened course ih =>
    obtain ⟨env, move⟩ := happened
    simp [history, ih, Happening.effects]

theorem sent_append (first second : List Happening) :
    sent (first ++ second) = sent first ++ sent second := by
  simp [sent, Effect.commands]

theorem history_append (first second : Course) :
    s.history (first ++ second) = s.history first ++ (s.after first).history second := by
  induction first generalizing s with
  | nil => rfl
  | cons happened first ih =>
    obtain ⟨env, move⟩ := happened
    simp [history, ih]

/-- What holds at the start and survives every step holds wherever a course leads. -/
theorem after_induction {P : Session → Prop} (hs : P s)
    (hstep : ∀ s env move, P s → P (s.step env move).1) (course : Course) :
    P (s.after course) := by
  induction course generalizing s with
  | nil => exact hs
  | cons happened course ih => exact ih (hstep s happened.1 happened.2 hs)

/-- What holds at the start and is kept by each move holds in every reachable session. -/
theorem Reachable.induction {P : Session → Prop} (hr : s.Reachable)
    (hstart : ∀ config roots, P (start config roots))
    (hstep : ∀ s env move, P s → P (s.step env move).1) : P s := by
  obtain ⟨config, roots, course, rfl⟩ := hr
  exact after_induction (hstart config roots) hstep course

/-- The same for what holds of a session and all that happened before. -/
theorem history_induction {P : List Happening → Session → Prop} (hs : P [] s)
    (hstep : ∀ past t env move, P past t → P (past ++ [⟨t, env, move⟩]) (t.step env move).1)
    (course : Course) : P (s.history course) (s.after course) := by
  induction course using List.reverseRecOn with
  | nil => exact hs
  | append_singleton course happened ih =>
    obtain ⟨env, move⟩ := happened
    rw [history_append, after_append]
    exact hstep _ _ env move ih

/-- What happened before anything in a history is the history of a course that leads there. -/
theorem history_split {course : Course} {before after : List Happening} {h : Happening}
    (hs : s.history course = before ++ h :: after) :
    ∃ first, s.history first = before ∧ s.after first = h.session := by
  induction course generalizing s before with
  | nil => simp [history] at hs
  | cons happened course ih =>
    obtain ⟨env, move⟩ := happened
    cases before with
    | nil =>
      rw [history, List.nil_append, List.cons.injEq] at hs
      exact ⟨[], rfl, by rw [← hs.1]; rfl⟩
    | cons b before =>
      rw [history, List.cons_append, List.cons.injEq] at hs
      obtain ⟨first, hbefore, hsession⟩ := ih hs.2
      exact ⟨(env, move) :: first, by simp [history, hbefore, hs.1], hsession⟩

/-- Something holds of all that happens, with what happened before it. -/
def Throughout (P : List Happening → Happening → Prop) (hist : List Happening) : Prop :=
  ∀ before h after, hist = before ++ h :: after → P before h

theorem throughout_of_forall {P : List Happening → Happening → Prop} {hist : List Happening}
    (hp : ∀ h ∈ hist, ∀ before, P before h) : Throughout P hist := by
  intro before h after hs
  exact hp h (hs ▸ List.mem_append_right _ List.mem_cons_self) before

theorem throughout_cons {P : List Happening → Happening → Prop} {h : Happening}
    {hist : List Happening} :
    Throughout P (h :: hist) ↔ P [] h ∧ Throughout (fun before => P (h :: before)) hist := by
  constructor
  · intro ht
    refine ⟨ht [] h hist rfl, ?_⟩
    intro before g after hs
    exact ht (h :: before) g after (by rw [hs]; rfl)
  · rintro ⟨hfirst, hrest⟩ before g after hs
    cases before with
    | nil =>
      rw [List.nil_append, List.cons.injEq] at hs
      exact hs.1 ▸ hfirst
    | cons b before =>
      rw [List.cons_append, List.cons.injEq] at hs
      exact hs.1 ▸ hrest before g after hs.2

theorem throughout_append {P : List Happening → Happening → Prop} {first second : List Happening} :
    Throughout P (first ++ second) ↔
      Throughout P first ∧ Throughout (fun before => P (first ++ before)) second := by
  induction first generalizing P with
  | nil => simp [Throughout]
  | cons h first ih =>
    rw [List.cons_append, throughout_cons, throughout_cons, ih, and_assoc]
    rfl

def willing (now : Nat) : Environment :=
  { now, spawn := fun _ => none, accepts := true, hasExited := false }

def traceRequest (seq : Nat) : Frontend.Request :=
  { seq, command := "stackTrace" }

/-- The debuggee is started and told to launch its program, which takes two commands, and is asked
for a stack trace with the third. -/
def tracing : Course :=
  [(willing 0, .request
      { seq := 1, command := "launch", arguments := .record [("program", .string "/w/a")] }),
    (willing 0, .handshake), (willing 500, .handshake), (willing 600, .handshake),
    (willing 600, .request (traceRequest 2))]

end DebugAdapter.Session
