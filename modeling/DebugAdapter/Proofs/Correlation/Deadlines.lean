import DebugAdapter.Proofs.Correlation.Ledger

namespace DebugAdapter.Correlation

structure Timer where
  key : Nat
  generation : Nat
  deadline : Nat
deriving DecidableEq, Repr

def Entry.timer {σ : Type} (e : Entry σ) : Timer :=
  ⟨e.key, e.generation, e.deadline⟩

/-- A table, the time, and the timers that are still to run. -/
structure Clocked (σ : Type) where
  now : Nat := 0
  table : Table σ := {}
  timers : List Timer := []

inductive Clocked.Event (σ : Type) where
  | register (key : Nat) (command : String) (sink : σ) (fallback : Json) (timeout : Nat)
  | resolve (key : Nat) (payload : Json)
  | resolveCommand (command : String) (payload : Json)
  | expire (key : Nat)
  | drain
  | run (timer : Timer)
  | cancel (timer : Timer)
  | wait (time : Nat)

namespace Clocked

variable {σ : Type}

def Event.operation? (now : Nat) : Event σ → Option (Operation σ)
  | register key command sink fallback timeout =>
    some (.register key command sink fallback (now + timeout))
  | resolve key payload => some (.resolve key payload)
  | resolveCommand command payload => some (.resolveCommand command payload)
  | expire key => some (.expire key)
  | drain => some .drain
  | run timer => some (.fire timer.key timer.generation)
  | cancel _ | wait _ => none

def Event.payload (fallback : Json) : Event σ → Json
  | resolve _ payload | resolveCommand _ payload => payload
  | _ => fallback

def tableAfter (c : Clocked σ) (event : Event σ) : Table σ :=
  match event.operation? c.now with
  | some op => (op.apply c.table).table
  | none => c.table

def completed (c : Clocked σ) (event : Event σ) : List (Completion σ) :=
  match event.operation? c.now with
  | some op => (op.apply c.table).completed
  | none => []

def step (c : Clocked σ) (event : Event σ) : Clocked σ where
  now := match event with
    | .wait time => c.now + time
    | _ => c.now
  table := c.tableAfter event
  timers := match event with
    | .register key _ _ _ timeout =>
      c.timers ++ [⟨key, c.table.nextGeneration, c.now + timeout⟩]
    | .run timer | .cancel timer => c.timers.erase timer
    | _ => c.timers

/-- What the clock and the timers allow: no timer runs before its deadline, the clock waits for
every timer, and only a timer whose entry is gone is cancelled. -/
def Allows (c : Clocked σ) : Event σ → Prop
  | .run timer => timer ∈ c.timers ∧ timer.deadline ≤ c.now
  | .cancel timer => timer ∈ c.timers ∧ ∀ e ∈ c.table.entries, e.timer ≠ timer
  | .wait time => ∀ timer ∈ c.timers, c.now + time ≤ timer.deadline
  | _ => True

def after (c : Clocked σ) (events : List (Event σ)) : Clocked σ :=
  events.foldl step c

def AllowsAll : Clocked σ → List (Event σ) → Prop
  | _, [] => True
  | c, event :: events => c.Allows event ∧ (c.step event).AllowsAll events

/-- An event takes a pending entry out: one that names its key, an answer to its command where it is
the oldest, a drain, or its own timer. -/
def Ends (c : Clocked σ) (e : Entry σ) : Event σ → Prop
  | .register key .. | .resolve key _ | .expire key => key = e.key
  | .resolveCommand command _ =>
    e.command = command ∧ ∀ d ∈ c.table.entries, d.command = command → e.key ≤ d.key
  | .drain => True
  | .run timer => timer = e.timer
  | .cancel _ | .wait _ => False

def Unended : Clocked σ → Entry σ → List (Event σ) → Prop
  | _, _, [] => True
  | c, e, event :: events => ¬ c.Ends e event ∧ (c.step event).Unended e events

variable {c : Clocked σ} {e : Entry σ} {event : Event σ}

theorem after_append (c : Clocked σ) (first second : List (Event σ)) :
    c.after (first ++ second) = (c.after first).after second :=
  List.foldl_append

theorem allows_append {first second : List (Event σ)} :
    c.AllowsAll (first ++ second) ↔ c.AllowsAll first ∧ (c.after first).AllowsAll second := by
  induction first generalizing c with
  | nil => exact (and_iff_right trivial).symm
  | cons event first ih =>
    rw [List.cons_append, AllowsAll, AllowsAll, ih, and_assoc]
    rfl

/-- The timers of a table under a clock: each pending entry has its own, none is overdue, and none
has the number of another. -/
structure Kept (c : Clocked σ) : Prop where
  keys : c.table.KeysUnique
  running : ∀ e ∈ c.table.entries, e.timer ∈ c.timers
  ahead : ∀ timer ∈ c.timers, c.now ≤ timer.deadline
  numbered : ∀ timer ∈ c.timers, timer.generation < c.table.nextGeneration
  apart : (c.timers.map Timer.generation).Nodup

theorem start_kept : Kept ({} : Clocked σ) where
  keys := Table.empty_keys
  running := nofun
  ahead := nofun
  numbered := nofun
  apart := List.nodup_nil

theorem Kept.generation_lt (hk : c.Kept) (he : e ∈ c.table.entries) :
    e.generation < c.table.nextGeneration :=
  hk.numbered e.timer (hk.running e he)

/-- A timer is that of an entry if its number is. -/
theorem Kept.timer_eq (hk : c.Kept) {timer : Timer} (ht : timer ∈ c.timers)
    (he : e ∈ c.table.entries) (hg : e.generation = timer.generation) : timer = e.timer :=
  List.inj_on_of_nodup_map hk.apart ht (hk.running e he) hg.symm

/-- What an allowed event takes out of the table is what it ends. -/
theorem Kept.ends_iff (hk : c.Kept) (ha : c.Allows event) (he : e ∈ c.table.entries) :
    c.Ends e event ↔ ∃ op, event.operation? c.now = some op ∧ e ∈ op.taken c.table := by
  cases event with
  | register key command sink fallback timeout =>
    simpa [Ends, Event.operation?, Operation.taken] using (Table.find_iff hk.keys he).symm
  | resolve key payload =>
    simpa [Ends, Event.operation?, Operation.taken] using (Table.find_iff hk.keys he).symm
  | resolveCommand command payload =>
    have htaken : e ∈ Operation.taken c.table (.resolveCommand command payload) ↔
        c.table.oldest? command = some e.key := by
      rw [Operation.taken, Option.mem_toList, Option.bind_eq_some_iff]
      constructor
      · rintro ⟨key, holdest, hf⟩
        exact (Table.find_mem hf).2 ▸ holdest
      · intro holdest
        exact ⟨e.key, holdest, Table.find_of_mem hk.keys he⟩
    have hends : c.Ends e (.resolveCommand command payload) ↔
        c.table.oldest? command = some e.key := by
      rw [Table.oldest_some_iff]
      refine and_congr_left fun _ => ⟨fun hc => ⟨e, he, hc, rfl⟩, ?_⟩
      rintro ⟨d, hd, hc, hkey⟩
      exact List.inj_on_of_nodup_map hk.keys hd he hkey ▸ hc
    simpa [Event.operation?, htaken] using hends
  | expire key =>
    simpa [Ends, Event.operation?, Operation.taken] using (Table.find_iff hk.keys he).symm
  | drain => simpa [Ends, Event.operation?, Operation.taken] using he
  | run timer =>
    have htaken : e ∈ Operation.taken c.table (.fire timer.key timer.generation) ↔
        timer.key = e.key ∧ e.generation = timer.generation := by
      rw [Operation.taken, Option.mem_toList, Option.filter_eq_some_iff, decide_eq_true_eq,
        Table.find_iff hk.keys he]
    have hends : timer = e.timer ↔ timer.key = e.key ∧ e.generation = timer.generation := by
      constructor
      · rintro rfl
        exact ⟨rfl, rfl⟩
      · rintro ⟨_, hg⟩
        exact hk.timer_eq ha.1 he hg
    simpa [Ends, Event.operation?, htaken] using hends
  | cancel timer => simp [Ends, Event.operation?]
  | wait time => simp [Ends, Event.operation?]

def added (c : Clocked σ) : Event σ → List (Entry σ)
  | .register key command sink fallback timeout =>
    [⟨key, c.table.nextGeneration, command, sink, fallback, c.now + timeout⟩]
  | _ => []

theorem added_eq {op : Operation σ} (hop : event.operation? c.now = some op) :
    op.added c.table.nextGeneration = c.added event := by
  cases event with
  | cancel timer | wait time => cases hop
  | _ => cases hop; rfl

theorem added_generation (he : e ∈ c.added event) : e.generation = c.table.nextGeneration := by
  cases event with
  | register key command sink fallback timeout => rw [List.mem_singleton.mp he]
  | _ => cases he

theorem added_nodup (c : Clocked σ) (event : Event σ) : (c.added event).Nodup := by
  cases event with
  | register key command sink fallback timeout => exact List.nodup_singleton _
  | _ => exact List.nodup_nil

theorem step_generation (c : Clocked σ) (event : Event σ) :
    (c.step event).table.nextGeneration = c.table.nextGeneration + (c.added event).length := by
  have hop (op : Operation σ) : (op.apply c.table).table.nextGeneration =
      c.table.nextGeneration + (op.added c.table.nextGeneration).length :=
    op.apply_generation c.table
  cases event with
  | cancel timer | wait time => rfl
  | _ => exact hop _

/-- After an allowed event there is pending what was pending and was not ended, and what the event
registers. -/
theorem Kept.mem_step (hk : c.Kept) (ha : c.Allows event) :
    e ∈ (c.step event).table.entries ↔
      e ∈ c.table.entries ∧ ¬ c.Ends e event ∨ e ∈ c.added event := by
  have hends := hk.ends_iff (e := e) ha
  have hnew : ∀ d ∈ c.added event, d ∉ c.table.entries := by
    intro d hd hold
    exact absurd (added_generation hd) (Nat.ne_of_lt (hk.generation_lt hold))
  change e ∈ (c.tableAfter event).entries ↔ _
  unfold tableAfter
  cases hop : event.operation? c.now with
  | none =>
    have hnone : c.added event = [] := by
      cases event <;> first | rfl | cases hop
    simp only [hop, reduceCtorEq, false_and, exists_false, iff_false] at hends
    simpa [hnone] using hends
  | some op =>
    have hperm := op.apply_takes c.table hk.keys
    rw [added_eq hop] at hperm
    -- Nothing occurs twice, so what is taken out is not there afterwards.
    have hnodup : (c.table.entries ++ c.added event).Nodup := by
      apply List.Nodup.append (List.Nodup.of_map _ hk.keys) (added_nodup c event)
      intro d hold hadded
      exact hnew d hadded hold
    obtain ⟨_, _, hapart⟩ := List.nodup_append.mp (hperm.nodup_iff.mpr hnodup)
    have hmem := hperm.mem_iff (a := e)
    simp only [List.mem_append] at hmem
    simp only [hop, Option.some.injEq, exists_eq_left'] at hends
    constructor
    · intro he
      have hkept : e ∉ op.taken c.table := fun ht => hapart e ht e he rfl
      rcases hmem.mp (Or.inr he) with hold | hadded
      · exact Or.inl ⟨hold, fun hended => hkept ((hends hold).mp hended)⟩
      · exact Or.inr hadded
    · rintro (⟨hold, hended⟩ | hadded)
      · exact (hmem.mpr (Or.inl hold)).resolve_left fun ht => hended ((hends hold).mpr ht)
      · apply (hmem.mpr (Or.inr hadded)).resolve_left
        intro ht
        exact hnew e hadded (op.taken_mem c.table ht)

/-- A timer is set for an entry that is added, and for nothing else. -/
theorem mem_timers_step {timer : Timer} (ht : timer ∈ (c.step event).timers) :
    timer ∈ c.timers ∨ ∃ e ∈ c.added event, timer = e.timer := by
  cases event with
  | register key command sink fallback timeout =>
    rcases List.mem_append.mp ht with hold | hnew
    · exact Or.inl hold
    · exact Or.inr ⟨_, List.mem_singleton_self _, List.mem_singleton.mp hnew⟩
  | run timer | cancel timer => exact Or.inl (List.mem_of_mem_erase ht)
  | _ => exact Or.inl ht

theorem timers_step_of_added (he : e ∈ c.added event) : e.timer ∈ (c.step event).timers := by
  cases event with
  | register key command sink fallback timeout =>
    rw [List.mem_singleton.mp he]
    exact List.mem_append_right _ (List.mem_singleton_self _)
  | _ => cases he

/-- The timer of an entry stays until it runs. -/
theorem timers_step_of_mem (ha : c.Allows event) (he : e ∈ c.table.entries)
    (hended : ¬ c.Ends e event) (ht : e.timer ∈ c.timers) : e.timer ∈ (c.step event).timers := by
  cases event with
  | register key command sink fallback timeout => exact List.mem_append_left _ ht
  | run timer => exact (List.mem_erase_of_ne (Ne.symm hended)).mpr ht
  | cancel timer => exact (List.mem_erase_of_ne (ha.2 e he)).mpr ht
  | _ => exact ht

theorem tableAfter_keys (hk : c.table.KeysUnique) (event : Event σ) :
    (c.tableAfter event).KeysUnique := by
  unfold tableAfter
  cases event.operation? c.now with
  | none => exact hk
  | some op => exact op.apply_keys c.table hk

/-- What the clock and the timers allow keeps every entry's timer, and in time. -/
theorem Kept.step (hk : c.Kept) (ha : c.Allows event) : (c.step event).Kept where
  keys := tableAfter_keys hk.keys event
  running := by
    intro e he
    rcases (hk.mem_step ha).mp he with ⟨hold, hended⟩ | hadded
    · exact timers_step_of_mem ha hold hended (hk.running e hold)
    · exact timers_step_of_added hadded
  ahead := by
    intro timer ht
    cases event with
    | register key command sink fallback timeout =>
      rcases List.mem_append.mp ht with hold | hnew
      · exact hk.ahead timer hold
      · rw [List.mem_singleton.mp hnew]
        exact Nat.le_add_right _ _
    | wait time => exact ha timer ht
    | run _ | cancel _ => exact hk.ahead timer (List.mem_of_mem_erase ht)
    | _ => exact hk.ahead timer ht
  numbered := by
    intro timer ht
    rw [step_generation]
    rcases mem_timers_step ht with hold | ⟨e, hadded, rfl⟩
    · exact Nat.lt_add_right _ (hk.numbered timer hold)
    · rw [Entry.timer, added_generation hadded]
      exact Nat.lt_add_of_pos_right (List.length_pos_of_mem hadded)
  apart := by
    cases event with
    | register key command sink fallback timeout =>
      change ((c.timers ++ [_]).map Timer.generation).Nodup
      rw [List.map_append]
      apply List.Nodup.append hk.apart (List.nodup_singleton _)
      intro generation hold hnew
      obtain ⟨timer, ht, rfl⟩ := List.mem_map.mp hold
      exact absurd (List.mem_singleton.mp hnew) (Nat.ne_of_lt (hk.numbered timer ht))
    | run timer | cancel timer =>
      exact hk.apart.sublist (List.Sublist.map _ List.erase_sublist)
    | _ => exact hk.apart

/-- What holds between the entries and their timers holds after every allowed course of events. -/
theorem Kept.after {events : List (Event σ)} (hk : c.Kept) (ha : c.AllowsAll events) :
    (c.after events).Kept := by
  induction events generalizing c with
  | nil => exact hk
  | cons event events ih => exact ih (hk.step ha.1) ha.2

/-- An entry that is gone does not come back. -/
theorem Kept.gone_after {events : List (Event σ)} (hk : c.Kept) (ha : c.AllowsAll events)
    (hg : e.generation < c.table.nextGeneration) (hn : e ∉ c.table.entries) :
    e ∉ (c.after events).table.entries := by
  induction events generalizing c with
  | nil => exact hn
  | cons event events ih =>
    apply ih (hk.step ha.1) ha.2
    · rw [step_generation]
      exact Nat.lt_add_right _ hg
    · rw [hk.mem_step ha.1]
      rintro (⟨hold, _⟩ | hadded)
      · exact hn hold
      · exact absurd (added_generation hadded) (Nat.ne_of_lt hg)

/-- A pending entry stays until an event ends it. -/
theorem Kept.mem_after {events : List (Event σ)} (hk : c.Kept) (ha : c.AllowsAll events)
    (he : e ∈ c.table.entries) :
    e ∈ (c.after events).table.entries ↔ c.Unended e events := by
  induction events generalizing c with
  | nil => exact iff_of_true he trivial
  | cons event events ih =>
    by_cases hended : c.Ends e event
    · have hgone : e ∉ (c.step event).table.entries := by
        rw [hk.mem_step ha.1]
        rintro (⟨_, hnot⟩ | hadded)
        · exact hnot hended
        · exact absurd (added_generation hadded) (Nat.ne_of_lt (hk.generation_lt he))
      have hg : e.generation < (c.step event).table.nextGeneration := by
        rw [step_generation]
        exact Nat.lt_add_right _ (hk.generation_lt he)
      apply iff_of_false
      · exact (hk.step ha.1).gone_after ha.2 hg hgone
      · exact fun hu => hu.1 hended
    · have hstays : e ∈ (c.step event).table.entries :=
        (hk.mem_step ha.1).mpr (Or.inl ⟨he, hended⟩)
      rw [Unended, and_iff_right hended]
      exact ih (hk.step ha.1) ha.2 hstays

/-- An event that ends an entry completes it, with what the event delivers. -/
theorem Kept.completed_of_ends (hk : c.Kept) (ha : c.Allows event) (he : e ∈ c.table.entries)
    (hended : c.Ends e event) : e.complete (event.payload e.fallback) ∈ c.completed event := by
  obtain ⟨op, hop, htaken⟩ := (hk.ends_iff ha he).mp hended
  have hpayload : op.payload e.fallback = event.payload e.fallback := by
    cases event with
    | cancel timer | wait time => cases hop
    | _ => cases hop; rfl
  simp only [completed, hop, op.completed_eq]
  exact List.mem_map.mpr ⟨e, htaken, by rw [hpayload]⟩

/-- A timer completes the entry of its own registration, if it waits, and no other. -/
theorem Kept.run_completes (hk : c.Kept) {timer : Timer} (ht : timer ∈ c.timers) :
    c.completed (.run timer) =
      (c.table.entries.filter (·.timer = timer)).map Entry.completeWithFallback := by
  have htaken : Operation.taken c.table (.fire timer.key timer.generation) =
      c.table.entries.filter (·.timer = timer) := by
    by_cases hwaits : ∃ e ∈ c.table.entries, e.timer = timer
    · obtain ⟨e, he, rfl⟩ := hwaits
      have hone : c.table.entries.filter (·.timer = e.timer) = [e] := by
        rw [← filter_at_name hk.keys he]
        apply List.filter_congr
        intro d hd
        rw [decide_eq_decide]
        constructor
        · exact congrArg Timer.key
        · intro hkey
          rw [List.inj_on_of_nodup_map hk.keys hd he hkey]
      rw [hone]
      simp [Operation.taken, Entry.timer, Table.find_of_mem hk.keys he]
    · have hnone : c.table.entries.filter (·.timer = timer) = [] := by
        simpa using hwaits
      rw [hnone, List.eq_nil_iff_forall_not_mem]
      intro e he
      rw [Operation.taken, Option.mem_toList, Option.filter_eq_some_iff, decide_eq_true_eq] at he
      have hold := (Table.find_mem he.1).1
      exact hwaits ⟨e, hold, (hk.timer_eq ht hold he.2).symm⟩
  change ((Operation.fire timer.key timer.generation).apply c.table).completed = _
  rw [Operation.completed_eq, htaken]
  rfl

/-- A timer completes the entry of its own registration and no other, and once the timers that are
due have run nothing overdue waits. An entry is pending as long as nothing ends it, with its own
timer still to run. What ends it comes no later than its deadline and completes it, and its own
timer comes at the deadline, with its own fallback. The timer of an earlier registration is a
different one, so it does not end it. -/
theorem waits_until_ended_or_due (events : List (Event σ))
    (ha : ({} : Clocked σ).AllowsAll events) :
    let s := ({} : Clocked σ).after events
    (∀ timer ∈ s.timers, s.completed (.run timer) =
      (s.table.entries.filter (·.timer = timer)).map Entry.completeWithFallback) ∧
    (∀ time, (∀ timer ∈ s.timers, time < timer.deadline) →
      ∀ e ∈ s.table.entries, time < e.deadline) ∧
    (∀ time, s.table.expireDue time = ((s.table.due time).map Entry.completeWithFallback,
      { s.table with entries := s.table.entries.filter (time < ·.deadline) })) ∧
    ∀ before key command sink fallback timeout later,
      events = before ++ .register key command sink fallback timeout :: later →
      let t := ({} : Clocked σ).after before
      let e : Entry σ :=
        ⟨key, t.table.nextGeneration, command, sink, fallback, t.now + timeout⟩
      let c := t.step (.register key command sink fallback timeout)
      e.timer ∉ t.timers ∧
      (e ∈ s.table.entries ↔ c.Unended e later) ∧
      (e ∈ s.table.entries → e.timer ∈ s.timers ∧ s.now ≤ t.now + timeout) ∧
      ∀ first event rest, later = first ++ event :: rest →
        let u := c.after first
        c.Unended e first → u.Ends e event →
        u.now ≤ t.now + timeout ∧ (event = .run e.timer → u.now = t.now + timeout) ∧
        e.complete (event.payload fallback) ∈ u.completed event := by
  intro s
  have hs : s.Kept := start_kept.after ha
  refine ⟨fun timer ht => hs.run_completes ht, ?_, Table.expireDue_eq hs.keys, ?_⟩
  · intro time hrun e he
    exact hrun e.timer (hs.running e he)
  intro before key command sink fallback timeout later hevents t e c
  have hsplit := hevents ▸ ha
  obtain ⟨hbefore, hregister, hlater⟩ := allows_append.mp hsplit
  have ht : t.Kept := start_kept.after hbefore
  have hc : c.Kept := ht.step hregister
  have he : e ∈ c.table.entries :=
    (ht.mem_step hregister).mpr (Or.inr (List.mem_singleton_self _))
  have hafter : s = c.after later := by
    change ({} : Clocked σ).after events = _
    rw [hevents, after_append]
    rfl
  refine ⟨?_, ?_, ?_, ?_⟩
  · exact fun hold => Nat.lt_irrefl _ (ht.numbered e.timer hold)
  · rw [hafter]
    exact hc.mem_after hlater he
  · intro hpending
    have hrunning := hs.running e hpending
    exact ⟨hrunning, hs.ahead e.timer hrunning⟩
  · intro first event rest hlist u hunended hends
    obtain ⟨hfirst, hevent, _⟩ := allows_append.mp (hlist ▸ hlater)
    have hu : u.Kept := hc.after hfirst
    have hpending : e ∈ u.table.entries := (hc.mem_after hfirst he).mpr hunended
    have hahead := hu.ahead e.timer (hu.running e hpending)
    refine ⟨hahead, ?_, hu.completed_of_ends hevent hpending hends⟩
    rintro rfl
    exact Nat.le_antisymm hahead hevent.2

/-- A key is registered again while it is pending. The timer of its first registration runs on its
own time, and so does that of its second. -/
def rekeyed : List (Event Unit) :=
  [.register 3 "stackTrace" () (.string "first") 1000, .wait 600,
    .register 3 "stackTrace" () (.string "second") 1000, .wait 400, .run ⟨3, 0, 1000⟩, .wait 600,
    .run ⟨3, 1, 1600⟩]

/-- An entry under a key that was in use before waits for its own deadline: the timer that is left
of the first does not end it. -/
theorem rekeyed_waits_in_full :
    ({} : Clocked Unit).AllowsAll rekeyed ∧
    let u := ({} : Clocked Unit).after (rekeyed.take 6)
    u.now = 1600 ∧ ⟨3, (), .string "second"⟩ ∈ u.completed (.run ⟨3, 1, 1600⟩) := by
  have ha : ({} : Clocked Unit).AllowsAll rekeyed := by
    simp [rekeyed, AllowsAll, Allows, step, tableAfter, Event.operation?, Operation.apply,
      Table.register, Table.fire, Table.find?, Table.erase]
  obtain ⟨_, _, _, hserved⟩ := waits_until_ended_or_due rekeyed ha
  obtain ⟨_, _, _, hends⟩ := hserved (rekeyed.take 2) 3 "stackTrace" () (.string "second") 1000
    (rekeyed.drop 3) rfl
  have hdead : (⟨3, 0, 1000⟩ : Timer) ≠ ⟨3, 1, 1600⟩ := by decide
  obtain ⟨_, hnow, hcompleted⟩ := hends [.wait 400, .run ⟨3, 0, 1000⟩, .wait 600]
    (.run ⟨3, 1, 1600⟩) [] rfl ⟨not_false, hdead, not_false, trivial⟩ rfl
  exact ⟨ha, hnow rfl, hcompleted⟩

end Clocked
end DebugAdapter.Correlation
