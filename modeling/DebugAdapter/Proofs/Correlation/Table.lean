import DebugAdapter.Correlation
import Mathlib.Data.List.Nodup
import Mathlib.Data.List.Perm.Basic

namespace DebugAdapter.Correlation

/-- Where names are not repeated, an element is the only one of its name. -/
theorem split_at_name {α : Type} {name : α → Nat} {xs : List α} {x : α}
    (hn : (xs.map name).Nodup) (hx : x ∈ xs) :
    ∃ before after, xs = before ++ x :: after ∧ ∀ y ∈ before ++ after, name y ≠ name x := by
  obtain ⟨before, after, rfl⟩ := List.mem_iff_append.mp hx
  have hmiddle : ((before ++ x :: after).map name).Perm ((x :: (before ++ after)).map name) :=
    List.perm_middle.map name
  have hout := (List.nodup_cons.mp (hmiddle.nodup_iff.mp hn)).1
  refine ⟨before, after, rfl, ?_⟩
  intro y hy he
  exact hout (List.mem_map.mpr ⟨y, hy, he⟩)

theorem filter_at_name {α : Type} {name : α → Nat} {xs : List α} {x : α}
    (hn : (xs.map name).Nodup) (hx : x ∈ xs) : xs.filter (name · = name x) = [x] := by
  obtain ⟨before, after, rfl, hother⟩ := split_at_name hn hx
  have hnone : ∀ ys : List α, (∀ y ∈ ys, name y ≠ name x) → ys.filter (name · = name x) = [] :=
    fun ys hys => List.filter_eq_nil_iff.mpr fun y hy => by simpa using hys y hy
  have hbefore := hnone before fun y hy => hother y (List.mem_append_left _ hy)
  have hafter := hnone after fun y hy => hother y (List.mem_append_right _ hy)
  rw [List.filter_append, hbefore, List.filter_cons, hafter]
  simp

namespace Table

variable {σ : Type} {t : Table σ} {e : Entry σ} {key : Nat}

def KeysUnique (t : Table σ) : Prop :=
  (t.entries.map Entry.key).Nodup

theorem empty_keys : KeysUnique ({} : Table σ) := by
  simp [KeysUnique]

theorem find_mem (hf : t.find? key = some e) : e ∈ t.entries ∧ e.key = key :=
  ⟨List.mem_of_find?_eq_some hf, by simpa using List.find?_some hf⟩

theorem find_none_iff : t.find? key = none ↔ ∀ e ∈ t.entries, e.key ≠ key := by
  simp [find?]

/-- The entry found under a key is the only one there. -/
theorem find_of_mem (hk : t.KeysUnique) (hm : e ∈ t.entries) : t.find? e.key = some e := by
  cases hf : t.find? e.key with
  | none => exact absurd rfl (find_none_iff.mp hf e hm)
  | some d =>
    obtain ⟨hd, he⟩ := find_mem hf
    rw [List.inj_on_of_nodup_map hk hd hm he]

theorem find_iff (hk : t.KeysUnique) (hm : e ∈ t.entries) :
    t.find? key = some e ↔ key = e.key := by
  constructor
  · intro hf
    exact (find_mem hf).2.symm
  · intro hkey
    rw [hkey]
    exact find_of_mem hk hm

theorem contains_iff : t.contains key = true ↔ ∃ e ∈ t.entries, e.key = key := by
  simp [contains, find?, List.find?_isSome]

theorem mem_erase : e ∈ (t.erase key).entries ↔ e ∈ t.entries ∧ e.key ≠ key := by
  simp [erase]

theorem erase_keys (hk : t.KeysUnique) : (t.erase key).KeysUnique :=
  hk.sublist (List.Sublist.map _ List.filter_sublist)

theorem erase_of_none (hf : t.find? key = none) : t.erase key = t := by
  have h := find_none_iff.mp hf
  have he : t.entries.filter (·.key ≠ key) = t.entries :=
    List.filter_eq_self.mpr fun e he => by simpa using h e he
  unfold erase
  rw [he]

/-- To erase a key is to take one entry out of the table. -/
theorem erase_takes (hk : t.KeysUnique) (hf : t.find? key = some e) :
    (e :: (t.erase key).entries).Perm t.entries := by
  obtain ⟨hm, rfl⟩ := find_mem hf
  obtain ⟨before, after, he, hother⟩ := split_at_name hk hm
  have hrest : (t.erase e.key).entries = before ++ after := by
    have hkeep : (before ++ after).filter (·.key ≠ e.key) = before ++ after :=
      List.filter_eq_self.mpr fun d hd => by simpa using hother d hd
    rw [erase, he, ← hkeep]
    simp [List.filter_append]
  rw [hrest, he]
  exact List.perm_middle.symm

theorem erase_takes_found (hk : t.KeysUnique) (key : Nat) :
    ((t.find? key).toList ++ (t.erase key).entries).Perm t.entries := by
  cases hf : t.find? key with
  | none => simp [erase_of_none hf]
  | some e => exact erase_takes hk hf

theorem resolve_eq (t : Table σ) (key : Nat) (payload : Json) :
    t.resolve key payload = ((t.find? key).map (·.complete payload), t.erase key) := by
  cases hf : t.find? key with
  | none => simp [resolve, hf, erase_of_none hf]
  | some e => simp [resolve, hf]

theorem expire_eq (t : Table σ) (key : Nat) :
    t.expire key = ((t.find? key).map Entry.completeWithFallback, t.erase key) := by
  cases hf : t.find? key with
  | none => simp [expire, hf, erase_of_none hf]
  | some e => simp [expire, hf]

/-- A timer completes the entry of its own registration and otherwise leaves the table alone. -/
theorem fire_eq (t : Table σ) (key generation : Nat) :
    t.fire key generation = if ∃ e, t.find? key = some e ∧ e.generation = generation
      then t.expire key else (none, t) := by
  cases hf : t.find? key with
  | none => simp [fire, hf]
  | some e => simp [fire, hf]

theorem oldest_none_iff {command : String} :
    t.oldest? command = none ↔ ∀ e ∈ t.entries, e.command ≠ command := by
  simp [oldest?, List.min?_eq_none_iff]

/-- The oldest entry of a command is the one with the least key. -/
theorem oldest_some_iff {command : String} : t.oldest? command = some key ↔
    (∃ e ∈ t.entries, e.command = command ∧ e.key = key) ∧
      ∀ e ∈ t.entries, e.command = command → key ≤ e.key := by
  have hm : ∀ key, key ∈ (t.entries.filter (·.command = command)).map Entry.key ↔
      ∃ e ∈ t.entries, e.command = command ∧ e.key = key := by
    simp [and_assoc]
  rw [oldest?, List.min?_eq_some_iff, hm]
  apply and_congr_right
  intro _
  constructor
  · intro hleast e he hc
    exact hleast e.key ((hm e.key).mpr ⟨e, he, hc, rfl⟩)
  · intro hleast key hkey
    obtain ⟨e, he, hc, rfl⟩ := (hm key).mp hkey
    exact hleast e he hc

theorem oldest_find (hk : t.KeysUnique) {command : String} (ho : t.oldest? command = some key) :
    ∃ e, t.find? key = some e ∧ e.command = command := by
  have hm : key ∈ (t.entries.filter (·.command = command)).map Entry.key := List.min?_mem ho
  obtain ⟨e, he, rfl⟩ := List.mem_map.mp hm
  obtain ⟨hin, hc⟩ := List.mem_filter.mp he
  exact ⟨e, find_of_mem hk hin, by simpa using hc⟩

theorem oldest_of_least {command : String} (hm : e ∈ t.entries) (hc : e.command = command)
    (hleast : ∀ d ∈ t.entries, e.key ≤ d.key) : t.oldest? command = some e.key := by
  refine List.min?_eq_some_iff.mpr ⟨?_, ?_⟩
  · exact List.mem_map.mpr ⟨e, List.mem_filter.mpr ⟨hm, by simpa using hc⟩, rfl⟩
  · intro key hkey
    obtain ⟨d, hd, rfl⟩ := List.mem_map.mp hkey
    exact hleast d (List.mem_filter.mp hd).1

theorem resolve_command_eq (t : Table σ) (command : String) (payload : Json) :
    t.resolveCommand command payload =
      match t.oldest? command with
      | none => (none, t)
      | some key => ((t.find? key).map (·.complete payload), t.erase key) := by
  cases ho : t.oldest? command with
  | none => simp [resolveCommand, ho]
  | some key => simp [resolveCommand, ho, resolve_eq]

theorem register_keys (hk : t.KeysUnique) (command : String) (sink : σ) (fallback : Json)
    (deadline : Nat) : (t.register key command sink fallback deadline).2.KeysUnique := by
  have hn : ((t.erase key).entries.map Entry.key ++ [key]).Nodup := by
    refine List.Nodup.append (erase_keys hk) (List.nodup_singleton _) ?_
    intro k hm hs
    obtain ⟨e, he, rfl⟩ := List.mem_map.mp hm
    exact (mem_erase.mp he).2 (List.mem_singleton.mp hs)
  simpa [register, KeysUnique] using hn

theorem fire_of_mem (hk : t.KeysUnique) (hm : e ∈ t.entries) :
    t.fire e.key e.generation = (some e.completeWithFallback, t.erase e.key) := by
  have hf := find_of_mem hk hm
  rw [fire_eq, if_pos ⟨e, hf, rfl⟩, expire_eq, hf, Option.map_some]

def fireEach (es : List (Entry σ)) (done : List (Completion σ)) (t : Table σ) :
    List (Completion σ) × Table σ :=
  es.foldl (fun (done, t) e =>
    let (completion, t) := t.fire e.key e.generation
    (done ++ completion.toList, t)) (done, t)

/-- Timers that are all current each complete their entry, in their order. -/
theorem fireEach_eq {es : List (Entry σ)} (done : List (Completion σ)) (hk : t.KeysUnique)
    (hes : (es.map Entry.key).Nodup) (hm : ∀ e ∈ es, e ∈ t.entries) :
    fireEach es done t = (done ++ es.map Entry.completeWithFallback,
      { t with entries := t.entries.filter fun d => d.key ∉ es.map Entry.key }) := by
  induction es generalizing done t with
  | nil => simp [fireEach]
  | cons e es ih =>
    obtain ⟨hout, hes⟩ := List.nodup_cons.mp hes
    have hrest : ∀ d ∈ es, d ∈ (t.erase e.key).entries := by
      intro d hd
      refine mem_erase.mpr ⟨hm d (List.mem_cons_of_mem _ hd), ?_⟩
      intro hkey
      exact hout (List.mem_map.mpr ⟨d, hd, hkey⟩)
    have hstep : fireEach (e :: es) done t =
        fireEach es (done ++ [e.completeWithFallback]) (t.erase e.key) := by
      have hfire := fire_of_mem hk (hm e List.mem_cons_self)
      simp only [fireEach, List.foldl_cons, hfire, Option.toList_some]
    have hleft : (t.erase e.key).entries.filter (fun d => d.key ∉ es.map Entry.key) =
        t.entries.filter fun d => d.key ∉ (e :: es).map Entry.key := by
      rw [erase, List.filter_filter]
      apply List.filter_congr
      intro d _
      rw [List.map_cons, ← Bool.decide_and, decide_eq_decide, List.mem_cons, not_or, and_comm]
    rw [hstep, ih _ (erase_keys hk) hes hrest, hleft, List.append_assoc]
    rfl

/-- What is due is completed with its fallback in the order of registration, and the rest waits. -/
theorem expireDue_eq (hk : t.KeysUnique) (now : Nat) :
    t.expireDue now = ((t.due now).map Entry.completeWithFallback,
      { t with entries := t.entries.filter (now < ·.deadline) }) := by
  have hdue : ∀ e ∈ t.due now, e ∈ t.entries := fun e he => (List.mem_filter.mp he).1
  have hkeys : ((t.due now).map Entry.key).Nodup :=
    hk.sublist (List.Sublist.map _ List.filter_sublist)
  have hrest : t.entries.filter (fun d => d.key ∉ (t.due now).map Entry.key) =
      t.entries.filter (now < ·.deadline) := by
    apply List.filter_congr
    intro d hd
    have hiff : d.key ∈ (t.due now).map Entry.key ↔ d.deadline ≤ now := by
      constructor
      · intro hmem
        obtain ⟨e, he, hkey⟩ := List.mem_map.mp hmem
        rw [← List.inj_on_of_nodup_map hk (hdue e he) hd hkey]
        simpa using (List.mem_filter.mp he).2
      · intro hle
        exact List.mem_map.mpr ⟨d, List.mem_filter.mpr ⟨hd, by simpa using hle⟩, rfl⟩
    rw [decide_eq_decide, hiff, Nat.not_le]
  have heq := fireEach_eq [] hk hkeys hdue
  rw [List.nil_append, hrest] at heq
  exact heq

end Table
end DebugAdapter.Correlation
