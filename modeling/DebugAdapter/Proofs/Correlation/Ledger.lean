import DebugAdapter.Proofs.Correlation.Table

namespace DebugAdapter.Correlation

/-- What can happen to a table; `fire` is the timer of one registration. -/
inductive Operation (σ : Type) where
  | register (key : Nat) (command : String) (sink : σ) (fallback : Json) (deadline : Nat)
  | resolve (key : Nat) (payload : Json)
  | resolveCommand (command : String) (payload : Json)
  | expire (key : Nat)
  | fire (key generation : Nat)
  | drain

inductive Returned where
  | nothing
  | flag (found : Bool)
  | count (found : Nat)
deriving DecidableEq, Repr

structure Outcome (σ : Type) where
  returned : Returned
  completed : List (Completion σ)
  table : Table σ

namespace Operation

variable {σ τ : Type}

/-- Does an operation. What it returns rests on what it looked up, not on what it completed. -/
def apply (t : Table σ) : Operation σ → Outcome σ
  | register key command sink fallback deadline =>
    let (done, table) := t.register key command sink fallback deadline
    ⟨.nothing, done.toList, table⟩
  | resolve key payload =>
    let (done, table) := t.resolve key payload
    ⟨.flag (t.contains key), done.toList, table⟩
  | resolveCommand command payload =>
    let (done, table) := t.resolveCommand command payload
    ⟨.flag (t.oldest? command).isSome, done.toList, table⟩
  | expire key =>
    let (done, table) := t.expire key
    ⟨.flag (t.contains key), done.toList, table⟩
  | fire key generation =>
    let (done, table) := t.fire key generation
    ⟨.nothing, done.toList, table⟩
  | drain =>
    let (done, table) := t.drain
    ⟨.count t.size, done, table⟩

def added (generation : Nat) : Operation σ → List (Entry σ)
  | register key command sink fallback deadline =>
    [⟨key, generation, command, sink, fallback, deadline⟩]
  | _ => []

/-- What an operation delivers to a sink that was registered with `fallback`. -/
def payload (fallback : Json) : Operation σ → Json
  | resolve _ payload | resolveCommand _ payload => payload
  | _ => fallback

/-- The entries that an operation is meant for. A timer is meant for its own registration only. -/
def Reaches (e : Entry σ) : Operation σ → Prop
  | register key .. | resolve key _ | expire key => e.key = key
  | resolveCommand command _ => e.command = command
  | fire key generation => e.key = key ∧ e.generation = generation
  | drain => True

def withSink (sink : τ) : Operation σ → Operation τ
  | register key command _ fallback deadline => register key command sink fallback deadline
  | resolve key payload => resolve key payload
  | resolveCommand command payload => resolveCommand command payload
  | expire key => expire key
  | fire key generation => fire key generation
  | drain => drain

def taken (t : Table σ) : Operation σ → List (Entry σ)
  | register key .. | resolve key _ | expire key => (t.find? key).toList
  | resolveCommand command _ => ((t.oldest? command).bind t.find?).toList
  | fire key generation => ((t.find? key).filter (·.generation = generation)).toList
  | drain => t.entries

theorem fire_found (t : Table σ) (key generation : Nat) :
    (∃ e, t.find? key = some e ∧ e.generation = generation ∧
      t.fire key generation = (some e.completeWithFallback, t.erase key) ∧
      taken t (fire key generation) = [e]) ∨
    (t.fire key generation = (none, t) ∧ taken t (fire key generation) = []) := by
  cases hf : t.find? key with
  | none => right; simp [t.fire_eq, hf, taken]
  | some e =>
    by_cases hg : e.generation = generation
    · left
      exact ⟨e, rfl, hg, by simp [t.fire_eq, t.expire_eq, hf, hg], by simp [taken, hf, hg]⟩
    · right
      simp [t.fire_eq, hf, hg, taken]

/-- Every completion is that of an entry which was taken out, with what the operation delivers. -/
theorem completed_eq (t : Table σ) (op : Operation σ) :
    (op.apply t).completed = (op.taken t).map fun e => e.complete (op.payload e.fallback) := by
  cases op with
  | register key command sink fallback deadline =>
    cases hf : t.find? key <;> simp [apply, taken, payload, Table.register, hf,
      Entry.completeWithFallback]
  | resolve key p => cases hf : t.find? key <;> simp [apply, taken, payload, t.resolve_eq, hf]
  | resolveCommand command p =>
    cases ho : t.oldest? command with
    | none => simp [apply, taken, t.resolve_command_eq, ho]
    | some key =>
      cases hf : t.find? key <;> simp [apply, taken, payload, t.resolve_command_eq, ho, hf]
  | expire key =>
    cases hf : t.find? key <;> simp [apply, taken, payload, t.expire_eq, hf,
      Entry.completeWithFallback]
  | fire key generation =>
    rcases fire_found t key generation with ⟨e, _, _, hfire, htaken⟩ | ⟨hfire, htaken⟩
    · simp [apply, hfire, htaken, payload, Entry.completeWithFallback]
    · simp [apply, hfire, htaken]
  | drain => simp [apply, taken, payload, Table.drain, Entry.completeWithFallback]

/-- What was taken out and what is left make up what was there and what was added. -/
theorem apply_takes (t : Table σ) (hk : t.KeysUnique) (op : Operation σ) :
    (op.taken t ++ (op.apply t).table.entries).Perm
      (t.entries ++ op.added t.nextGeneration) := by
  cases op with
  | register key command sink fallback deadline =>
    have h := (t.erase_takes_found hk key).append_right
      [⟨key, t.nextGeneration, command, sink, fallback, deadline⟩]
    simpa [apply, taken, added, Table.register] using h
  | resolve key p => simpa [apply, taken, added, t.resolve_eq] using t.erase_takes_found hk key
  | resolveCommand command p =>
    cases ho : t.oldest? command with
    | none => simp [apply, taken, added, t.resolve_command_eq, ho]
    | some key =>
      simpa [apply, taken, added, t.resolve_command_eq, ho] using t.erase_takes_found hk key
  | expire key => simpa [apply, taken, added, t.expire_eq] using t.erase_takes_found hk key
  | fire key generation =>
    rcases fire_found t key generation with ⟨e, hf, _, hfire, htaken⟩ | ⟨hfire, htaken⟩
    · simpa [apply, hfire, htaken, added] using Table.erase_takes hk hf
    · simp [apply, hfire, htaken, added]
  | drain => simp [apply, taken, added, Table.drain]

/-- What an operation takes out of a table is what it names. -/
theorem taken_reached (t : Table σ) (hk : t.KeysUnique) (op : Operation σ) {e : Entry σ}
    (hm : e ∈ op.taken t) : op.Reaches e := by
  cases op with
  | register key command sink fallback deadline =>
    exact (Table.find_mem (by simpa [taken] using hm)).2
  | resolve key p => exact (Table.find_mem (by simpa [taken] using hm)).2
  | resolveCommand command p =>
    cases ho : t.oldest? command with
    | none => simp [taken, ho] at hm
    | some key =>
      obtain ⟨d, hd, hc⟩ := Table.oldest_find hk ho
      have he : e = d := by simpa [taken, ho, hd] using hm
      exact he ▸ hc
  | expire key => exact (Table.find_mem (by simpa [taken] using hm)).2
  | fire key generation =>
    rcases fire_found t key generation with ⟨d, hf, hg, _, htaken⟩ | ⟨_, htaken⟩
    · rw [htaken, List.mem_singleton] at hm
      exact hm ▸ ⟨(Table.find_mem hf).2, hg⟩
    · simp [htaken] at hm
  | drain => trivial

theorem taken_mem (t : Table σ) (op : Operation σ) {e : Entry σ} (hm : e ∈ op.taken t) :
    e ∈ t.entries := by
  cases op with
  | register key command sink fallback deadline =>
    exact (Table.find_mem (by simpa [taken] using hm)).1
  | resolve key p => exact (Table.find_mem (by simpa [taken] using hm)).1
  | resolveCommand command p =>
    obtain ⟨key, _, hf⟩ := Option.bind_eq_some_iff.mp (Option.mem_toList.mp hm)
    exact (Table.find_mem hf).1
  | expire key => exact (Table.find_mem (by simpa [taken] using hm)).1
  | fire key generation =>
    obtain ⟨hf, _⟩ := Option.filter_eq_some_iff.mp (Option.mem_toList.mp hm)
    exact (Table.find_mem hf).1
  | drain => exact hm

theorem apply_keys (t : Table σ) (hk : t.KeysUnique) (op : Operation σ) :
    (op.apply t).table.KeysUnique := by
  cases op with
  | register key command sink fallback deadline =>
    exact Table.register_keys hk command sink fallback deadline
  | resolve key p => simpa [apply, t.resolve_eq] using Table.erase_keys hk
  | resolveCommand command p =>
    cases ho : t.oldest? command with
    | none => simpa [apply, t.resolve_command_eq, ho] using hk
    | some key => simpa [apply, t.resolve_command_eq, ho] using Table.erase_keys hk
  | expire key => simpa [apply, t.expire_eq] using Table.erase_keys hk
  | fire key generation =>
    rcases fire_found t key generation with ⟨e, _, _, hfire, _⟩ | ⟨hfire, _⟩
    · simpa [apply, hfire] using Table.erase_keys hk
    · simpa [apply, hfire] using hk
  | drain => simp [apply, Table.drain, Table.KeysUnique]

/-- Each registration takes the next generation, and nothing else takes one. -/
theorem apply_generation (t : Table σ) (op : Operation σ) :
    (op.apply t).table.nextGeneration =
      t.nextGeneration + (op.added t.nextGeneration).length := by
  cases op with
  | register key command sink fallback deadline => rfl
  | resolve key p => simp [apply, added, t.resolve_eq, Table.erase]
  | resolveCommand command p =>
    cases ho : t.oldest? command <;> simp [apply, added, t.resolve_command_eq, ho, Table.erase]
  | expire key => simp [apply, added, t.expire_eq, Table.erase]
  | fire key generation =>
    rcases fire_found t key generation with ⟨e, _, _, hfire, _⟩ | ⟨hfire, _⟩ <;>
      simp [apply, added, hfire, Table.erase]
  | drain => rfl

end Operation

/-- A flag says that one sink was completed or none, a count says how many were and that none is
left. -/
def Outcome.Truthful {σ : Type} (o : Outcome σ) : Prop :=
  match o.returned with
  | .nothing => True
  | .flag found => o.completed.length = found.toNat
  | .count found => o.completed.length = found ∧ o.table.entries = []

/-- What an operation returns says how many sinks it has completed. -/
theorem Operation.apply_truthful {σ : Type} (t : Table σ) (hk : t.KeysUnique) (op : Operation σ) :
    (op.apply t).Truthful := by
  cases op with
  | register key command sink fallback deadline => trivial
  | resolve key p =>
    cases hf : t.find? key <;> simp [apply, Outcome.Truthful, t.resolve_eq, Table.contains, hf]
  | resolveCommand command p =>
    cases ho : t.oldest? command with
    | none => simp [apply, Outcome.Truthful, t.resolve_command_eq, ho]
    | some key =>
      obtain ⟨e, hf, _⟩ := Table.oldest_find hk ho
      simp [apply, Outcome.Truthful, t.resolve_command_eq, ho, hf]
  | expire key =>
    cases hf : t.find? key <;> simp [apply, Outcome.Truthful, t.expire_eq, Table.contains, hf]
  | fire key generation => trivial
  | drain => simp [apply, Outcome.Truthful, Table.drain, Table.size]

/-- The book of a table whose sinks are numbered in the order of their registration: every entry
that was registered, and every completion with the operation that made it. -/
structure Ledger where
  table : Table Nat := {}
  registered : List (Entry Nat) := []
  settled : List (Operation Nat × Completion Nat) := []

namespace Ledger

variable {σ : Type} {l : Ledger}

/-- Does an operation and enters it in the book. A registration hands over the next sink, whatever
its caller calls it. -/
def step (l : Ledger) (op : Operation σ) : Ledger :=
  let op := op.withSink l.registered.length
  let outcome := op.apply l.table
  { table := outcome.table
    registered := l.registered ++ op.added l.table.nextGeneration
    settled := l.settled ++ outcome.completed.map (op, ·) }

def run (ops : List (Operation σ)) : Ledger :=
  ops.foldl step {}

def settlements (l : Ledger) (sink : Nat) : List (Operation Nat × Completion Nat) :=
  l.settled.filter (·.2.sink = sink)

def settle (p : Operation Nat × Entry Nat) : Operation Nat × Completion Nat :=
  (p.1, p.2.complete (p.1.payload p.2.fallback))

/-- Every entry ever registered is in the table or was settled: `paid` holds those with the
operations that did it. -/
structure Balanced (l : Ledger) (paid : List (Operation Nat × Entry Nat)) : Prop where
  keys : l.table.KeysUnique
  numbered : l.registered.map Entry.sink = List.range l.registered.length
  settled : l.settled = paid.map settle
  conserved : (paid.map Prod.snd ++ l.table.entries).Perm l.registered
  reached : ∀ p ∈ paid, p.1.Reaches p.2

theorem empty_balanced : Balanced {} [] :=
  ⟨Table.empty_keys, rfl, rfl, List.Perm.refl _, by simp⟩

theorem added_numbered (op : Operation σ) (sink generation : Nat) :
    ((op.withSink sink).added generation).map Entry.sink =
      (List.range ((op.withSink sink).added generation).length).map (sink + ·) := by
  cases op <;> simp [Operation.withSink, Operation.added]

/-- An operation is entered in the books: the entry it adds is registered, and those it takes out
are paid for. -/
theorem step_balanced {paid : List (Operation Nat × Entry Nat)} (hb : l.Balanced paid)
    (op : Operation σ) :
    (l.step op).Balanced (paid ++ ((op.withSink l.registered.length).taken l.table).map
      (op.withSink l.registered.length, ·)) := by
  have hnumber := added_numbered op l.registered.length l.table.nextGeneration
  generalize hop : op.withSink l.registered.length = op' at hnumber
  have htakes := op'.apply_takes l.table hb.keys
  generalize hnew : op'.added l.table.nextGeneration = new at hnumber htakes
  refine ⟨?_, ?_, ?_, ?_, ?_⟩
  · simpa [step, hop] using op'.apply_keys l.table hb.keys
  · simp [step, hop, hnew, hb.numbered, hnumber, List.range_add]
  · simp [step, hop, hb.settled, op'.completed_eq, settle]
  · have hpaid := (htakes.append_left (paid.map Prod.snd)).trans
      (by simpa using hb.conserved.append_right new)
    simpa [step, hop, hnew, Function.comp_def] using hpaid
  · intro p hp
    rcases List.mem_append.mp hp with hp | hp
    · exact hb.reached p hp
    · obtain ⟨e, he, rfl⟩ := List.mem_map.mp hp
      exact op'.taken_reached l.table hb.keys he

/-- The books balance after any sequence of operations. -/
theorem run_balanced (ops : List (Operation σ)) : ∃ paid, (run ops).Balanced paid := by
  suffices h : ∀ (l : Ledger) paid, l.Balanced paid →
      ∃ paid', (ops.foldl step l).Balanced paid' from h {} [] empty_balanced
  induction ops with
  | nil => exact fun l paid hb => ⟨paid, hb⟩
  | cons op ops ih => exact fun l paid hb => ih _ _ (step_balanced hb op)

/-- No number is given out twice, so none is both settled and pending, or settled twice. -/
theorem Balanced.sinks_nodup {paid : List (Operation Nat × Entry Nat)} (hb : l.Balanced paid) :
    (paid.map (·.2.sink) ++ l.table.entries.map Entry.sink).Nodup := by
  have hp : (paid.map (·.2.sink) ++ l.table.entries.map Entry.sink).Perm
      (List.range l.registered.length) := by
    simpa [hb.numbered, Function.comp_def] using hb.conserved.map Entry.sink
  exact hp.nodup_iff.mpr List.nodup_range

theorem Balanced.sink_eq {paid : List (Operation Nat × Entry Nat)} (hb : l.Balanced paid)
    {sink : Nat} {e : Entry Nat} (he : l.registered[sink]? = some e) : e.sink = sink := by
  have h : (l.registered.map Entry.sink)[sink]? = some e.sink := by simp [he]
  rw [hb.numbered] at h
  obtain ⟨_, hs⟩ := List.getElem?_eq_some_iff.mp h
  simpa using hs.symm

theorem Balanced.settlements_eq {paid : List (Operation Nat × Entry Nat)} (hb : l.Balanced paid)
    (sink : Nat) : l.settlements sink = (paid.filter (·.2.sink = sink)).map settle := by
  rw [settlements, hb.settled, List.filter_map]
  rfl

theorem Balanced.settlements_of_pending {paid : List (Operation Nat × Entry Nat)}
    (hb : l.Balanced paid) {e : Entry Nat} (he : e ∈ l.table.entries) :
    l.settlements e.sink = [] := by
  have hdisjoint := (List.nodup_append.mp hb.sinks_nodup).2.2
  have hnone : ∀ p ∈ paid, p.2.sink ≠ e.sink := fun p hp =>
    hdisjoint _ (List.mem_map.mpr ⟨p, hp, rfl⟩) _ (List.mem_map.mpr ⟨e, he, rfl⟩)
  have hempty : paid.filter (·.2.sink = e.sink) = [] :=
    List.filter_eq_nil_iff.mpr fun p hp => by simpa using hnone p hp
  rw [hb.settlements_eq, hempty, List.map_nil]

/-- An entry that was settled is no longer pending, and its sink was completed once. -/
theorem Balanced.settlements_of_paid {paid : List (Operation Nat × Entry Nat)}
    (hb : l.Balanced paid) {op : Operation Nat} {e : Entry Nat} (hp : (op, e) ∈ paid) :
    (∀ d ∈ l.table.entries, d.sink ≠ e.sink) ∧ l.settlements e.sink = [settle (op, e)] := by
  obtain ⟨hpaid, _, hdisjoint⟩ := List.nodup_append.mp hb.sinks_nodup
  refine ⟨fun d hd heq => ?_, ?_⟩
  · exact hdisjoint _ (List.mem_map.mpr ⟨_, hp, rfl⟩) _ (List.mem_map.mpr ⟨d, hd, rfl⟩) heq.symm
  · rw [hb.settlements_eq, filter_at_name hpaid hp, List.map_singleton]

/-- After any operations in any order, every sink that was registered either waits and was not
completed, or waits no more and was completed once, by an operation that was meant for it and with
what that delivers: the payload of a resolution, else the fallback of its own registration. Nothing
else is pending or was completed, and whatever comes next returns the truth. -/
theorem sink_waits_or_was_completed_once (ops : List (Operation σ)) :
    let l := run ops
    (∀ sink e, l.registered[sink]? = some e →
      (e ∈ l.table.entries ∧ l.settlements sink = []) ∨
      ((∀ d ∈ l.table.entries, d.sink ≠ sink) ∧ ∃ op : Operation Nat, op.Reaches e ∧
        l.settlements sink = [(op, ⟨e.key, sink, op.payload e.fallback⟩)])) ∧
    (∀ e ∈ l.table.entries, e ∈ l.registered) ∧
    (∀ s ∈ l.settled, s.2.sink < l.registered.length) ∧
    ∀ op : Operation Nat, (op.apply l.table).Truthful := by
  intro l
  obtain ⟨paid, hb⟩ : ∃ paid, l.Balanced paid := run_balanced ops
  refine ⟨?_, ?_, ?_, ?_⟩
  · intro sink e he
    have hsink := hb.sink_eq he
    subst hsink
    have hm := hb.conserved.mem_iff.mpr (List.mem_of_getElem? he)
    rcases List.mem_append.mp hm with hpaid | hpending
    · obtain ⟨⟨op, d⟩, hp, rfl⟩ := List.mem_map.mp hpaid
      obtain ⟨hout, honce⟩ := hb.settlements_of_paid hp
      exact Or.inr ⟨hout, op, hb.reached _ hp, honce⟩
    · exact Or.inl ⟨hpending, hb.settlements_of_pending hpending⟩
  · exact fun e he => hb.conserved.mem_iff.mp (List.mem_append_right _ he)
  · intro s hs
    rw [hb.settled] at hs
    obtain ⟨p, hp, rfl⟩ := List.mem_map.mp hs
    have hm : p.2 ∈ l.registered :=
      hb.conserved.mem_iff.mp (List.mem_append_left _ (List.mem_map.mpr ⟨p, hp, rfl⟩))
    have hrange : p.2.sink ∈ l.registered.map Entry.sink := List.mem_map.mpr ⟨p.2, hm, rfl⟩
    rw [hb.numbered] at hrange
    exact List.mem_range.mp hrange
  · exact fun op => op.apply_truthful l.table hb.keys

/-- A key is registered again while it is pending, the timer of its first registration fires late,
and an answer comes. -/
def reusedKey : List (Operation Unit) :=
  [.register 3 "stackTrace" () (.string "first") 10,
    .register 3 "stackTrace" () (.string "second") 20, .fire 3 0,
    .resolve 3 (.string "answer"), .resolve 3 (.string "late"), .drain]

theorem reused_key_completed_once :
    (run reusedKey).registered[1]? = some ⟨3, 1, "stackTrace", 1, .string "second", 20⟩ ∧
    ∃ op : Operation Nat,
      (run reusedKey).settlements 1 = [(op, ⟨3, 1, op.payload (.string "second")⟩)] := by
  have hr : (run reusedKey).registered[1]? =
      some ⟨3, 1, "stackTrace", 1, .string "second", 20⟩ := rfl
  refine ⟨hr, ?_⟩
  rcases (sink_waits_or_was_completed_once reusedKey).1 1 _ hr with
    ⟨hpending, _⟩ | ⟨_, op, _, honce⟩
  · exact absurd hpending List.not_mem_nil
  · exact ⟨op, honce⟩

end Ledger
end DebugAdapter.Correlation
