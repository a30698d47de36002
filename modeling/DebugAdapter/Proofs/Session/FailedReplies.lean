import DebugAdapter.Proofs.Session.Outcomes

namespace DebugAdapter.Session

open Frontend Correlation

/-- A reply comes, and completes the stack trace with this number. -/
def Happening.RepliesTo (number : Nat) (q : Debuggee.Reply) (h : Happening) : Prop :=
  h.reply? = some q ∧ ∃ e, e.key = number ∧ h.session.Completes h.env q e

def Presents (p : Response) (q : Debuggee.Reply) : Prop :=
  p.success = true ∧ p.body = some q.body

/-- Of the replies that complete a stack trace only those are presented to the front end that
succeeded and have an object to show. -/
def Honest (hist : List Happening) (last : Session) : Prop :=
  ∀ h ∈ hist, ∀ number q p, h.RepliesTo number q → (number, p) ∈ outcomes hist last →
    Presents p q → q.success = true ∧ q.body.isObject = true

/-- What a stack trace is answered with after its reply. Whether that failed is not asked. -/
def replyResponse (r : Request) (q : Debuggee.Reply) : Response :=
  .forRequest r.seq "stackTrace" (some (if q.body.isObject then q.body else emptyStackTrace))

/-- The stack trace with this number has the answer that it gets for this reply. -/
def RepliedTo (past : List Happening) (s : Session) (number : Nat) (q : Debuggee.Reply) : Prop :=
  ∃ r, (number, r) ∈ passedOn past ∧ (number, replyResponse r q) ∈ outcomes past s

variable {past : List Happening} {s : Session} {h : Happening} {number : Nat} {q : Debuggee.Reply}

/-- A reply is presented exactly if it has an object to show: what is shown in the place of anything
else is one. -/
theorem presents_iff (r : Request) (q : Debuggee.Reply) :
    Presents (replyResponse r q) q ↔ q.body.isObject = true := by
  constructor
  · rintro ⟨_, hbody⟩
    have hshown : (if q.body.isObject then q.body else emptyStackTrace) = q.body :=
      Option.some.inj hbody
    split at hshown
    · assumption
    · rw [← hshown]
      rfl
  · intro hobject
    exact ⟨rfl, by simp [replyResponse, Response.forRequest, hobject]⟩

theorem RepliedTo.grow (hs : RepliedTo past h.session number q) :
    RepliedTo (past ++ [h]) h.next number q := by
  obtain ⟨r, hpassed, hin⟩ := hs
  refine ⟨r, ?_, outcome_grows hin⟩
  rw [passed_on_snoc]
  exact List.mem_append_left _ hpassed

/-- The body of a reply is released to the stack trace that the reply completes. -/
theorem body_completed (hs : h.session.DeskSound) (hto : h.RepliesTo number q) :
    ∃ e ∈ h.session.pending.entries, e.key = number ∧ e.complete q.body ∈ h.completed := by
  obtain ⟨hq, e, rfl, hdone⟩ := hto
  have htaken := (completes_iff hs.keys).mp hdone
  refine ⟨e, hdone.1, rfl, ?_⟩
  have hop : h.session.operation? h.env h.move = some (h.session.matching q) := by
    rw [reply_some hq]
    rfl
  rw [Happening.completed, hop, Option.map_some, Option.getD_some, Operation.completed_eq]
  refine List.mem_map.mpr ⟨e, htaken, ?_⟩
  rw [matching_payload]

/-- A reply that completes a stack trace is its answer. -/
theorem step_replied_to (hr : Recorded past h.session) (hto : h.RepliesTo number q) :
    RepliedTo (past ++ [h]) h.next number q := by
  obtain ⟨e, he, rfl, hcompleted⟩ := body_completed hr.sound hto
  obtain ⟨r, hpassed, hsink⟩ := hr.pending e he
  refine ⟨r, ?_, (step_outcomes past h).mem_iff.mpr (List.mem_append_right _ ?_)⟩
  · rw [passed_on_snoc]
    exact List.mem_append_left _ hpassed
  · refine List.mem_map.mpr ⟨_, hcompleted, ?_⟩
    simp only [outcome, stackTraceResponse, replyResponse, Entry.complete, hsink]

theorem run_replied_to (config : Config) (roots : List String) (course : Course) :
    let hist := (start config roots).history course
    let last := (start config roots).after course
    Counted hist last ∧
      ∀ h ∈ hist, ∀ number q, h.RepliesTo number q → RepliedTo hist last number q := by
  have hrun := history_induction (s := start config roots) (P := fun past s =>
    Recorded past s ∧ Counted past s ∧
      ∀ h ∈ past, ∀ number q, h.RepliesTo number q → RepliedTo past s number q)
    ⟨empty_recorded config roots, by simp [Counted, outcomes, passedOn, start], by simp⟩ ?_ course
  · exact hrun.2
  · rintro past s env move ⟨hr, hc, hreplied⟩
    refine ⟨step_recorded hr env move, step_counted hr.sound.keys hc, fun h hh number q hto => ?_⟩
    rcases List.mem_append.mp hh with hold | hnew
    · exact (hreplied h hold number q hto).grow
    · obtain rfl := List.mem_singleton.mp hnew
      exact step_replied_to hr hto

theorem replied_once (config : Config) (roots : List String) (course : Course) :
    let hist := (start config roots).history course
    let last := (start config roots).after course
    ∀ h ∈ hist, ∀ number q, h.RepliesTo number q → ∃ r, (number, r) ∈ passedOn hist ∧
      (outcomes hist last).filter (·.1 = number) = [(number, replyResponse r q)] := by
  intro hist last h hh number q hto
  obtain ⟨hcounted, hreplied⟩ := run_replied_to config roots course
  obtain ⟨r, hpassed, hin⟩ := hreplied h hh number q hto
  exact ⟨r, hpassed, counted_once (run_recorded config roots course) hcounted hin⟩

/-- A stack trace that a reply completes is answered once, with the body of the reply if that is an
object, else without frames. The answer is a success whether or not the reply was one, so the front
end is shown no failed reply as a success exactly if none that completes a stack trace has an object
for its body. -/
theorem honest_iff_no_failure_with_object (config : Config) (roots : List String)
    (course : Course) :
    let hist := (start config roots).history course
    let last := (start config roots).after course
    (∀ h ∈ hist, ∀ number q, h.RepliesTo number q → ∃ r, (number, r) ∈ passedOn hist ∧
      (outcomes hist last).filter (·.1 = number) = [(number, replyResponse r q)]) ∧
    (∀ h ∈ hist, ∀ number p, h.answer? = some (number, p) → responses h.effects = [p]) ∧
    (Honest hist last ↔ ∀ h ∈ hist, ∀ number q, h.RepliesTo number q →
      q.body.isObject = true → q.success = true) := by
  intro hist last
  have honce := replied_once config roots course
  refine ⟨honce, fun h _ number p hanswer => answer_sent hanswer, ?_, ?_⟩
  · intro hhonest h hh number q hto hobject
    obtain ⟨r, _, hone⟩ := honce h hh number q hto
    have hin : (number, replyResponse r q) ∈ outcomes hist last :=
      List.mem_of_mem_filter (hone ▸ List.mem_singleton_self _)
    exact (hhonest h hh number q _ hto hin ((presents_iff r q).mpr hobject)).1
  · intro hsuccess h hh number q p hto hin hpresents
    -- There is one answer under the number, and it is the one for this reply.
    obtain ⟨r, _, hone⟩ := honce h hh number q hto
    have hp : (number, p) ∈ [(number, replyResponse r q)] :=
      hone ▸ List.mem_filter.mpr ⟨hin, by simp⟩
    obtain rfl : p = replyResponse r q := (Prod.mk.inj (List.mem_singleton.mp hp)).2
    have hobject := (presents_iff r q).mp hpresents
    exact ⟨hsuccess h hh number q hto hobject, hobject⟩

def failedReply : Debuggee.Reply :=
  { command := "stackTrace"
    body := .object [("stackFrames", .array []), ("totalFrames", .nat 7)]
    success := false
    requestSeq := some 3
    message := some "no frames" }

def failing : Course :=
  tracing ++ [(willing 700, .report (.record (.reply failedReply))), (willing 700, .answer 0)]

theorem failed_reply_shown_as_success :
    let hist := (start {} ["/w"]).history failing
    let last := (start {} ["/w"]).after failing
    responses ((start {} ["/w"]).effects failing) =
        [.forRequest 1 "launch" none, .forRequest 2 "stackTrace" (some failedReply.body)] ∧
      failedReply.success = false ∧ ¬ Honest hist last := by
  intro hist last
  refine ⟨rfl, rfl, fun hhonest => ?_⟩
  let h : Happening := ⟨(start {} ["/w"]).after tracing, willing 700,
    .report (.record (.reply failedReply))⟩
  have hh : h ∈ hist :=
    List.mem_append_right ((start {} ["/w"]).history tracing) List.mem_cons_self
  have hto : h.RepliesTo 3 failedReply :=
    ⟨rfl, ⟨3, 0, "stackTrace", 2, emptyStackTrace, 1600⟩, rfl, List.mem_cons_self,
      List.not_mem_nil⟩
  have hin : (3, Response.forRequest 2 "stackTrace" (some failedReply.body)) ∈
      outcomes hist last := List.mem_cons_self
  exact absurd (hhonest h hh 3 failedReply _ hto hin ⟨rfl, rfl⟩).1 (by decide)

end DebugAdapter.Session
