import DebugAdapter.Proofs.Session.Desk

namespace DebugAdapter.Session

open Frontend Correlation

def Completes (env : Environment) (s : Session) (r : Debuggee.Reply) (e : Entry Nat) : Prop :=
  e ∈ s.pending.entries ∧ e ∉ (s.step env (.report (.record (.reply r)))).1.pending.entries

variable {env : Environment} {s : Session} {r : Debuggee.Reply} {e : Entry Nat}

/-- A reply completes the entries that its matching takes. -/
theorem completes_iff (hk : s.pending.KeysUnique) :
    s.Completes env r e ↔ e ∈ (s.matching r).taken s.pending := by
  have htable : (s.step env (.report (.record (.reply r)))).1.pending =
      ((s.matching r).apply s.pending).table :=
    (s.step_worked env (.report (.record (.reply r))) (by simp)).1
  have htakes := (s.matching r).apply_takes s.pending hk
  rw [s.matching_added, List.append_nil] at htakes
  have hnodup := htakes.nodup_iff.mpr (List.Nodup.of_map _ hk)
  rw [Completes, htable]
  constructor
  · rintro ⟨hin, hout⟩
    exact (List.mem_append.mp (htakes.mem_iff.mpr hin)).resolve_right hout
  · intro htaken
    refine ⟨(s.matching r).taken_mem s.pending htaken, ?_⟩
    exact List.disjoint_of_nodup_append hnodup htaken

theorem matching_of_number {seq : Nat} (hn : r.requestSeq = some seq)
    (hc : s.pending.contains seq = true) : s.matching r = .resolve seq r.body := by
  simp [matching, hn, hc]

theorem matching_of_command (hn : ∀ seq, r.requestSeq = some seq → s.pending.contains seq = false) :
    s.matching r = .resolveCommand r.command r.body := by
  cases hr : r.requestSeq with
  | none => simp [matching, hr]
  | some seq => simp [matching, hr, hn seq hr]

/-- A reply completes what waits under the number that it names, and else only what waits for its
command. -/
theorem matching_reaches (hm : (s.matching r).Reaches e) :
    (∃ seq, r.requestSeq = some seq ∧ e.key = seq ∧ s.pending.contains seq = true) ∨
      ((∀ seq, r.requestSeq = some seq → s.pending.contains seq = false) ∧
        e.command = r.command) := by
  by_cases hn : ∃ seq, r.requestSeq = some seq ∧ s.pending.contains seq = true
  · obtain ⟨seq, hn, hc⟩ := hn
    rw [matching_of_number hn hc] at hm
    exact Or.inl ⟨seq, hn, hm, hc⟩
  · have hn' : ∀ seq, r.requestSeq = some seq → s.pending.contains seq = false := by
      intro seq hr
      by_contra hc
      exact hn ⟨seq, hr, by simpa using hc⟩
    rw [matching_of_command hn'] at hm
    exact Or.inr ⟨hn', hm⟩

/-- A reply completes only what waits for its own command exactly if it is a reply to a stack trace
or does not name the number of one that is pending. -/
theorem reply_completes_own_command_iff (config : Config) (roots : List String) (course : Course)
    (env : Environment) (r : Debuggee.Reply) :
    let s := (start config roots).after course
    (∀ e, s.Completes env r e → e.command = r.command) ↔
      ∀ seq, r.requestSeq = some seq → s.pending.contains seq = true →
        r.command = "stackTrace" := by
  intro s
  have hs : s.DeskSound := reachable_sound s ⟨config, roots, course, rfl⟩
  constructor
  · intro hown seq hn hc
    obtain ⟨e, he, hkey⟩ := Table.contains_iff.mp hc
    have hfind := hkey ▸ Table.find_of_mem hs.keys he
    have htaken : e ∈ (s.matching r).taken s.pending := by
      simp [matching_of_number hn hc, Operation.taken, hfind]
    rw [← hown e ((completes_iff hs.keys).mpr htaken)]
    exact hs.command e he
  · intro hnumber e hdone
    have htaken := (completes_iff hs.keys).mp hdone
    rcases matching_reaches ((s.matching r).taken_reached s.pending hs.keys htaken) with
      ⟨seq, hn, _, hc⟩ | ⟨_, hc⟩
    · rw [hnumber seq hn hc]
      exact hs.command e hdone.1
    · exact hc

/-- A reply to `next` that is numbered like the pending stack trace completes it. -/
theorem next_completes_stack_trace :
    let s := (start {} ["/w"]).after tracing
    let r : Debuggee.Reply := { command := "next", body := .record [], requestSeq := some 3 }
    ∃ e, s.Completes (willing 700) r e ∧ e.command ≠ r.command := by
  refine ⟨⟨3, 0, "stackTrace", 2, emptyStackTrace, 1600⟩, ⟨?_, ?_⟩, by decide⟩
  · exact List.mem_cons_self
  · exact List.not_mem_nil

end DebugAdapter.Session
