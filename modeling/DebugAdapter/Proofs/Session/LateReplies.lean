import DebugAdapter.Proofs.Session.Replies
import DebugAdapter.Proofs.Session.Responses

namespace DebugAdapter.Session

open Frontend Correlation

namespace Happening

def reply? (h : Happening) : Option Debuggee.Reply :=
  match h.move with
  | .report (.record (.reply r)) => some r
  | _ => none

/-- The stack trace that is passed on, and the number of its command. -/
def passed? (h : Happening) : Option (Nat × Request) :=
  match h.move with
  | .request r => if h.session.defers h.env r then some (h.session.link.nextSeq, r) else none
  | _ => none

def answer? (h : Happening) : Option (Nat × Response) :=
  match h.move with
  | .answer index => h.session.released[index]?.map fun c => (c.key, stackTraceResponse c)
  | _ => none

/-- A reply whose number is not pending leaves the desk as it was. -/
def DropsStale (h : Happening) : Prop :=
  ∀ q seq, h.reply? = some q → q.requestSeq = some seq → h.session.pending.contains seq = false →
    h.next.pending = h.session.pending ∧ h.next.released = h.session.released

/-- A reply to a stack trace that is not pending, while another is. -/
def Late (h : Happening) : Prop :=
  ∃ q seq, h.reply? = some q ∧ q.requestSeq = some seq ∧ q.command = "stackTrace" ∧
    h.session.pending.contains seq = false ∧ h.session.pending.entries ≠ []

/-- A reply completes a stack trace whose number it does not name. -/
def Misdelivers (h : Happening) : Prop :=
  ∃ q e, h.reply? = some q ∧ e ∈ h.session.pending.entries ∧ q.requestSeq ≠ some e.key ∧
    h.next.released = h.session.released ++ [e.complete q.body]

end Happening

def replies (past : List Happening) : List Debuggee.Reply :=
  past.filterMap Happening.reply?

def passedOn (past : List Happening) : List (Nat × Request) :=
  past.filterMap Happening.passed?

/-- A debuggee that replies to a command that it was sent, with its name and number, and once at
most. -/
def Echoes (past : List Happening) (h : Happening) : Prop :=
  ∀ q, h.reply? = some q →
    (∃ c ∈ sent past, q.command = c.command ∧ q.requestSeq = some c.seq) ∧
      ∀ p ∈ replies past, p.requestSeq ≠ q.requestSeq

/-- A payload that the stack trace with this number may be answered with. -/
def Own (past : List Happening) (number : Nat) (payload : Json) : Prop :=
  payload = emptyStackTrace ∨
    ∃ q ∈ replies past, q.requestSeq = some number ∧ payload = q.body

/-- An answer goes to the request that its number was given to, and carries what is its own. -/
def OwnAnswer (past : List Happening) (h : Happening) : Prop :=
  ∀ number p, h.answer? = some (number, p) →
    responses h.effects = [p] ∧ ∃ r, (number, r) ∈ passedOn past ∧ p.requestSeq = r.seq ∧
      p.command = r.command ∧ ∃ body, p.body = some body ∧ Own past number body

/-- What the past of a session says about its desk. -/
structure Recorded (past : List Happening) (s : Session) : Prop where
  sound : s.DeskSound
  numbers : ((passedOn past).map Prod.fst).Nodup
  below : ∀ p ∈ passedOn past, p.1 < s.link.nextSeq
  pending : ∀ e ∈ s.pending.entries, ∃ r, (e.key, r) ∈ passedOn past ∧ e.sink = r.seq
  released : ∀ c ∈ s.released, ∃ r, (c.key, r) ∈ passedOn past ∧ c.sink = r.seq

variable {past : List Happening} {s : Session} {h : Happening}

@[simp] theorem passed_on_snoc : passedOn (past ++ [h]) = passedOn past ++ h.passed?.toList := by
  cases hp : h.passed? <;> simp [passedOn, hp]

@[simp] theorem replies_snoc : replies (past ++ [h]) = replies past ++ h.reply?.toList := by
  cases hr : h.reply? <;> simp [replies, hr]

theorem passed_some {p : Nat × Request} (hp : h.passed? = some p) :
    h.move = .request p.2 ∧ h.session.defers h.env p.2 = true ∧ p.1 = h.session.link.nextSeq := by
  unfold Happening.passed? at hp
  split at hp
  · rename_i r hm
    split at hp
    · rename_i hd
      cases hp
      exact ⟨hm, hd, rfl⟩
    · cases hp
  · cases hp

theorem passed_deferred {r : Request} (hm : h.move = .request r)
    (hd : h.session.defers h.env r = true) : h.passed? = some (h.session.link.nextSeq, r) := by
  simp [Happening.passed?, hm, hd]

theorem empty_recorded (config : Config) (roots : List String) :
    Recorded [] (start config roots) :=
  ⟨start_sound config roots, by simp [passedOn], by simp [passedOn], by simp [start],
    by simp [start]⟩

/-- Numbers are given out once, so a stack trace is known by the number of its command. -/
theorem step_recorded (hr : Recorded past s) (env : Environment) (move : Move) :
    Recorded (past ++ [⟨s, env, move⟩]) (s.step env move).1 := by
  have hgrow {p : Nat × Request} (hp : p ∈ passedOn past) :
      p ∈ passedOn (past ++ [⟨s, env, move⟩]) := by
    rw [passed_on_snoc]
    exact List.mem_append_left _ hp
  refine ⟨s.step_sound env hr.sound move, ?_, ?_, ?_, ?_⟩
  · rw [passed_on_snoc, List.map_append]
    refine List.Nodup.append hr.numbers ?_ ?_
    · cases hp : Happening.passed? ⟨s, env, move⟩ <;> simp
    · intro number hold hnew
      obtain ⟨p, hp, rfl⟩ := List.mem_map.mp hold
      obtain ⟨q, hq, heq⟩ := List.mem_map.mp hnew
      have hnumber := (passed_some (Option.mem_toList.mp hq)).2.2
      have hlt := hr.below p hp
      rw [← heq, hnumber] at hlt
      exact Nat.lt_irrefl _ hlt
  · intro p hp
    rw [passed_on_snoc] at hp
    rcases List.mem_append.mp hp with hp | hp
    · exact Nat.lt_of_lt_of_le (hr.below p hp) (s.step_number_le env move)
    · obtain ⟨hm, hd, hnumber⟩ := passed_some (Option.mem_toList.mp hp)
      cases hm
      rw [hnumber, s.deferred_number env p.2 hd]
      exact Nat.lt_succ_self _
  · intro e he
    rcases s.entry_origin env hr.sound.keys move he with hold | ⟨r, rfl, hd, rfl⟩
    · obtain ⟨r, hp, hsink⟩ := hr.pending e hold
      exact ⟨r, hgrow hp, hsink⟩
    · refine ⟨r, ?_, rfl⟩
      rw [passed_on_snoc, passed_deferred rfl hd]
      exact List.mem_append_right _ List.mem_cons_self
  · intro c hc
    rcases s.release_origin env hr.sound.keys move hc with hold | ⟨op, e, _, he, _, rfl⟩
    · obtain ⟨r, hp, hsink⟩ := hr.released c hold
      exact ⟨r, hgrow hp, hsink⟩
    · obtain ⟨r, hp, hsink⟩ := hr.pending e he
      exact ⟨r, hgrow hp, hsink⟩

/-- Every course leaves the desk with what its past has put there. -/
theorem run_recorded (config : Config) (roots : List String) (course : Course) :
    Recorded ((start config roots).history course) ((start config roots).after course) :=
  history_induction (empty_recorded config roots)
    (fun _ _ env move hr => step_recorded hr env move) course

theorem reply_some {q : Debuggee.Reply} (hq : h.reply? = some q) :
    h.move = .report (.record (.reply q)) := by
  unfold Happening.reply? at hq
  split at hq
  · rename_i r hm
    cases hq
    exact hm
  · cases hq

theorem reply_worked {q : Debuggee.Reply} (hq : h.reply? = some q) :
    h.session.Worked h.next (some (h.session.matching q)) := by
  have hm := reply_some hq
  have hop : h.session.operation? h.env h.move = some (h.session.matching q) := by
    rw [hm]
    rfl
  exact hop ▸ h.session.step_worked h.env h.move (by simp [hm])

theorem matching_payload (r : Debuggee.Reply) (fallback : Json) :
    (s.matching r).payload fallback = r.body := by
  unfold matching
  split
  · rfl
  · split <;> rfl

/-- A reply whose number is not pending completes what waits for its command, if anything does. -/
theorem stale_matching {q : Debuggee.Reply} {seq : Nat} (hn : q.requestSeq = some seq)
    (hstale : s.pending.contains seq = false) :
    s.matching q = .resolveCommand q.command q.body :=
  matching_of_command fun k hk => by rwa [← Option.some.inj (hn.symm.trans hk)]

/-- A late reply is delivered to a stack trace that it does not belong to. -/
theorem late_misdelivers (hs : h.session.DeskSound) (hl : h.Late) : h.Misdelivers := by
  obtain ⟨q, seq, hq, hn, hc, hstale, hpending⟩ := hl
  cases ho : h.session.pending.oldest? q.command with
  | none =>
    obtain ⟨e, he⟩ := List.exists_mem_of_ne_nil _ hpending
    exact absurd ((hs.command e he).trans hc.symm) (Table.oldest_none_iff.mp ho e he)
  | some key =>
    obtain ⟨e, he, _⟩ := Table.oldest_find hs.keys ho
    have hin := (Table.find_mem he).1
    have hother : q.requestSeq ≠ some e.key := by
      rintro hsame
      have hfound := Table.contains_iff.mpr ⟨e, hin, Option.some.inj (hsame.symm.trans hn)⟩
      simp [hstale] at hfound
    refine ⟨q, e, hq, hin, hother, ?_⟩
    have hreleased := (reply_worked hq).2
    rw [Operation.completed_eq, stale_matching hn hstale] at hreleased
    simpa [Operation.taken, Operation.payload, ho, he] using hreleased

/-- A reply whose number is not pending is dropped exactly if it is not late. -/
theorem drops_stale_iff (hs : h.session.DeskSound) : h.DropsStale ↔ ¬ h.Late := by
  constructor
  · rintro hdrop hl
    obtain ⟨p, seq, hp, hn, _, hstale, _⟩ := id hl
    obtain ⟨q, e, _, _, _, hreleased⟩ := late_misdelivers hs hl
    rw [(hdrop p seq hp hn hstale).2] at hreleased
    simp at hreleased
  · intro hlate q seq hq hn hstale
    have hnone : h.session.pending.oldest? q.command = none := by
      refine Table.oldest_none_iff.mpr fun e he hc => hlate ?_
      exact ⟨q, seq, hq, hn, hc ▸ hs.command e he, hstale, List.ne_nil_of_mem he⟩
    have hw := reply_worked hq
    rw [stale_matching hn hstale] at hw
    simpa [Worked, Operation.apply, Table.resolve_command_eq, hnone] using hw

/-- Only a reply delivers anything but the fallback. -/
theorem operation_payload {env : Environment} {move : Move} {op : Operation Nat}
    (hop : s.operation? env move = some op) :
    (∃ r, move = .report (.record (.reply r)) ∧ op = s.matching r) ∨
      ∀ fallback, op.payload fallback = fallback := by
  cases move with
  | request r =>
    simp only [operation?] at hop
    split at hop
    · cases hop
      exact Or.inr fun _ => rfl
    · split at hop
      · cases hop
        exact Or.inr fun _ => rfl
      · cases hop
  | report report =>
    rcases report with (⟨name, body⟩ | reply) | ⟨line, reason⟩ | info
    · cases hop
    · cases hop
      exact Or.inl ⟨reply, rfl, rfl⟩
    · cases hop
    · cases hop
      exact Or.inr fun _ => rfl
  | timer key generation =>
    cases hop
    exact Or.inr fun _ => rfl
  | handshake => cases hop
  | answer index => cases hop
  | shutDown =>
    cases hop
    exact Or.inr fun _ => rfl

theorem Own.grow {number : Nat} {payload : Json} (ho : Own past number payload) (h : Happening) :
    Own (past ++ [h]) number payload := by
  rcases ho with hempty | ⟨q, hq, hn, hbody⟩
  · exact Or.inl hempty
  · refine Or.inr ⟨q, ?_, hn, hbody⟩
    rw [replies_snoc]
    exact List.mem_append_left _ hq

/-- A reply that names a number and is not late completes only the stack trace of that number. -/
theorem step_own (hr : Recorded past s) (ho : ∀ c ∈ s.released, Own past c.key c.payload)
    (env : Environment) (move : Move)
    (hnumbered : ∀ q, Happening.reply? ⟨s, env, move⟩ = some q → q.requestSeq ≠ none)
    (hlate : ¬ Happening.Late ⟨s, env, move⟩) :
    ∀ c ∈ (s.step env move).1.released, Own (past ++ [⟨s, env, move⟩]) c.key c.payload := by
  intro c hc
  rcases s.release_origin env hr.sound.keys move hc with hold | ⟨op, e, hop, he, hreaches, rfl⟩
  · exact (ho c hold).grow _
  · rcases operation_payload hop with ⟨r, rfl, rfl⟩ | hfallback
    · obtain ⟨seq, hn⟩ := Option.ne_none_iff_exists'.mp (hnumbered r rfl)
      rcases matching_reaches hreaches with ⟨k, hk, hkey, _⟩ | ⟨hstale, hcommand⟩
      · refine Or.inr ⟨r, ?_, hk.trans (congrArg some hkey.symm), matching_payload r e.fallback⟩
        rw [replies_snoc]
        exact List.mem_append_right _ List.mem_cons_self
      · refine absurd ⟨r, seq, rfl, hn, ?_, hstale seq hn, List.ne_nil_of_mem he⟩ hlate
        exact hcommand ▸ hr.sound.command e he
    · exact Or.inl ((hfallback e.fallback).trans (hr.sound.fallback e he))

/-- Unless a reply was late, every answer carries what is its own. -/
theorem run_own (config : Config) (roots : List String) (course : Course) :
    let hist := (start config roots).history course
    (∀ h ∈ hist, ∀ q, h.reply? = some q → q.requestSeq ≠ none) → (∀ h ∈ hist, ¬ h.Late) →
      ∀ c ∈ ((start config roots).after course).released, Own hist c.key c.payload := by
  refine (history_induction (P := fun past s => Recorded past s ∧
    ((∀ h ∈ past, ∀ q, h.reply? = some q → q.requestSeq ≠ none) → (∀ h ∈ past, ¬ h.Late) →
      ∀ c ∈ s.released, Own past c.key c.payload))
    ⟨empty_recorded config roots, by simp [start]⟩ ?_ course).2
  rintro past s env move ⟨hr, ho⟩
  refine ⟨step_recorded hr env move, fun hnumbered hlate => ?_⟩
  rw [List.forall_mem_append] at hnumbered hlate
  exact step_own hr (ho hnumbered.1 hlate.1) env move (hnumbered.2 _ List.mem_cons_self)
    (hlate.2 _ List.mem_cons_self)

theorem passed_command {p : Nat × Request} (hp : p ∈ passedOn past) :
    p.2.command = "stackTrace" := by
  obtain ⟨h, _, hp⟩ := List.mem_filterMap.mp hp
  exact h.session.defers_command h.env (passed_some hp).2.1

theorem answer_sent {number : Nat} {p : Response} (hp : h.answer? = some (number, p)) :
    responses h.effects = [p] := by
  obtain ⟨s, env, move⟩ := h
  cases move with
  | answer index =>
    obtain ⟨c, hc, heq⟩ := Option.map_eq_some_iff.mp hp
    cases heq
    have hc : s.released[index]? = some c := hc
    simp only [Happening.effects, step, answerReleased, hc]
    rfl
  | _ => cases hp

theorem released_answer (hr : Recorded past h.session)
    (ho : ∀ c ∈ h.session.released, Own past c.key c.payload) : OwnAnswer past h := by
  obtain ⟨s, env, move⟩ := h
  intro number p hp
  cases move with
  | answer index =>
    obtain ⟨c, hc, heq⟩ := Option.map_eq_some_iff.mp hp
    cases heq
    obtain ⟨r, hpassed, hsink⟩ := hr.released c (List.mem_of_getElem? hc)
    refine ⟨answer_sent hp, r, hpassed, hsink, (passed_command hpassed).symm, _, rfl, ?_⟩
    split
    · exact ho c (List.mem_of_getElem? hc)
    · exact Or.inl rfl
  | _ => cases hp

def traceReply (number : Nat) : Debuggee.Reply :=
  { command := "stackTrace", body := .record [("totalFrames", .nat 1)], requestSeq := some number }

theorem echoes_quiet (hq : h.reply? = none) : Echoes past h := by
  intro q hr
  rw [hq] at hr
  cases hr

theorem quiet_not_late (hq : h.reply? = none) : ¬ h.Late := by
  rintro ⟨q, _, hr, _⟩
  rw [hq] at hr
  cases hr

theorem tracing_quiet : ∀ h ∈ (start {} ["/w"]).history tracing, h.reply? = none := by
  simp [tracing, history, Happening.reply?]

theorem tracing_sent :
    (⟨3, "stackTrace", stackTraceArguments (traceRequest 2)⟩ : Debuggee.Command) ∈
      sent ((start {} ["/w"]).history tracing) :=
  List.mem_cons_of_mem _ (List.mem_cons_of_mem _ List.mem_cons_self)

/-- The stack trace of `tracing` may be replied to at any time later. -/
theorem tracing_echoed (quiet : List Happening) (h : Happening) (rest : List Happening)
    (hquiet : ∀ g ∈ quiet, g.reply? = none) (hr : h.reply? = some (traceReply 3))
    (hrest : ∀ g ∈ rest, g.reply? = none) :
    Throughout Echoes ((start {} ["/w"]).history tracing ++ (quiet ++ h :: rest)) := by
  refine throughout_append.mpr ⟨throughout_of_forall ?_, throughout_append.mpr
    ⟨throughout_of_forall ?_, throughout_cons.mpr ⟨?_, throughout_of_forall ?_⟩⟩⟩
  · exact fun g hg _ => echoes_quiet (tracing_quiet g hg)
  · exact fun g hg _ => echoes_quiet (hquiet g hg)
  · intro q hq
    obtain rfl := Option.some.inj (hr.symm.trans hq)
    refine ⟨⟨⟨3, "stackTrace", stackTraceArguments (traceRequest 2)⟩, ?_, rfl, rfl⟩, ?_⟩
    · rw [sent_append]
      exact List.mem_append_left _ tracing_sent
    · intro p hp
      obtain ⟨g, hg, hgp⟩ := List.mem_filterMap.mp hp
      have hnone : g.reply? = none := by
        rcases List.mem_append.mp hg with hg | hg
        · exact tracing_quiet g hg
        · exact hquiet g (by simpa using hg)
      rw [hnone] at hgp
      cases hgp
  · exact fun g hg _ => echoes_quiet (hrest g hg)

/-- Where the debuggee echoes what it was sent, each stack trace is answered with its own and stale
replies are dropped, exactly if no reply is late. One that is late goes to another stack trace. -/
theorem own_answers_iff_never_late (config : Config) (roots : List String) (course : Course)
    (hecho : Throughout Echoes ((start config roots).history course)) :
    let hist := (start config roots).history course
    ((passedOn hist).map Prod.fst).Nodup ∧
      ((Throughout OwnAnswer hist ∧ ∀ h ∈ hist, h.DropsStale) ↔ ∀ h ∈ hist, ¬ h.Late) ∧
      ∀ h ∈ hist, h.Late → h.Misdelivers := by
  intro hist
  have hsound : ∀ h ∈ hist, h.session.DeskSound := by
    intro h hh
    obtain ⟨before, after, hsplit⟩ := List.mem_iff_append.mp hh
    obtain ⟨first, _, hsession⟩ := history_split hsplit
    exact hsession ▸ reachable_sound _ ⟨config, roots, first, rfl⟩
  refine ⟨(run_recorded config roots course).numbers, ⟨?_, ?_⟩,
    fun h hh => late_misdelivers (hsound h hh)⟩
  · rintro ⟨_, hstale⟩ h hh
    exact (drops_stale_iff (hsound h hh)).mp (hstale h hh)
  · intro hlate
    refine ⟨?_, fun h hh => (drops_stale_iff (hsound h hh)).mpr (hlate h hh)⟩
    intro before h after hsplit
    obtain ⟨first, hbefore, hsession⟩ := history_split hsplit
    have hnumbered : ∀ g ∈ before, ∀ q, g.reply? = some q → q.requestSeq ≠ none := by
      intro g hg q hq
      obtain ⟨past, rest, hpast⟩ := List.mem_iff_append.mp hg
      obtain ⟨⟨c, _, _, hn⟩, _⟩ := hecho past g (rest ++ h :: after)
        (by rw [← List.cons_append, ← List.append_assoc, ← hpast]; exact hsplit) q hq
      simp [hn]
    have hpunctual : ∀ g ∈ before, ¬ g.Late :=
      fun g hg => hlate g (hsplit ▸ List.mem_append_left _ hg)
    subst hbefore
    exact released_answer (hsession ▸ run_recorded config roots first)
      (hsession ▸ run_own config roots first hnumbered hpunctual)

theorem prompt_reply_is_own :
    let course := tracing ++
      [(willing 700, .report (.record (.reply (traceReply 3)))), (willing 700, .answer 0)]
    let hist := (start {} ["/w"]).history course
    Throughout Echoes hist ∧ Throughout OwnAnswer hist := by
  intro course hist
  have hecho : Throughout Echoes hist :=
    tracing_echoed [] ⟨_, willing 700, .report (.record (.reply (traceReply 3)))⟩
      [⟨_, willing 700, .answer 0⟩] (by simp) rfl (by simp [Happening.reply?])
  have hlate : ∀ h ∈ hist, ¬ h.Late := by
    have hsplit : hist = (start {} ["/w"]).history tracing ++
        ((start {} ["/w"]).after tracing).history
          [(willing 700, .report (.record (.reply (traceReply 3)))), (willing 700, .answer 0)] :=
      rfl
    rw [hsplit, List.forall_mem_append]
    refine ⟨fun h hh => quiet_not_late (tracing_quiet h hh), ?_⟩
    intro h hh
    rcases List.mem_pair.mp hh with rfl | rfl
    · rintro ⟨q, seq, hq, hn, _, hstale, _⟩
      cases hq
      cases hn
      exact absurd hstale (by decide)
    · exact quiet_not_late rfl
  exact ⟨hecho, ((own_answers_iff_never_late {} ["/w"] course hecho).2.1.mpr hlate).1⟩

/-- A stack trace expires, another is asked for, and then the reply to the first comes. -/
def belated : Course :=
  tracing ++ [(willing 1600, .timer 3 0), (willing 1600, .answer 0),
    (willing 1600, .request (traceRequest 5)),
    (willing 1700, .report (.record (.reply (traceReply 3)))), (willing 1700, .answer 0)]

theorem belated_reply_answers_another :
    let hist := (start {} ["/w"]).history belated
    Throughout Echoes hist ∧ ¬ Throughout OwnAnswer hist ∧ ¬ ∀ h ∈ hist, h.DropsStale := by
  intro hist
  refine ⟨?_, ?_, ?_⟩
  · exact tracing_echoed
      [⟨_, willing 1600, .timer 3 0⟩, ⟨_, willing 1600, .answer 0⟩,
        ⟨_, willing 1600, .request (traceRequest 5)⟩]
      ⟨_, willing 1700, .report (.record (.reply (traceReply 3)))⟩ [⟨_, willing 1700, .answer 0⟩]
      (by simp [Happening.reply?]) rfl (by simp [Happening.reply?])
  · intro hown
    obtain ⟨_, _, _, _, _, body, hbody, hpayload⟩ := hown
      ((start {} ["/w"]).history (belated.take 9))
      ⟨(start {} ["/w"]).after (belated.take 9), willing 1700, .answer 0⟩ [] rfl
      4 (stackTraceResponse ⟨4, 5, (traceReply 3).body⟩) rfl
    obtain rfl : (traceReply 3).body = body := Option.some.inj hbody
    rcases hpayload with hempty | ⟨q, hq, hn, _⟩
    · have hfields : [("totalFrames", Json.nat 1)] =
          [("stackFrames", Json.array []), ("totalFrames", Json.nat 0)] := Json.record.inj hempty
      simp at hfields
    · have hreplies : replies ((start {} ["/w"]).history (belated.take 9)) = [traceReply 3] := rfl
      rw [hreplies, List.mem_singleton] at hq
      subst hq
      exact absurd hn (by decide)
  · intro hdrops
    have hstale := (hdrops
      ⟨(start {} ["/w"]).after (belated.take 8), willing 1700,
        .report (.record (.reply (traceReply 3)))⟩
      (List.mem_append_right ((start {} ["/w"]).history (belated.take 8)) List.mem_cons_self))
      _ _ rfl rfl rfl
    exact absurd (congrArg (·.entries.length) hstale.1) (by decide)

end DebugAdapter.Session
