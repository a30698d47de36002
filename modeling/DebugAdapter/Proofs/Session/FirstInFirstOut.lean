import DebugAdapter.Proofs.Session.Outcomes

namespace DebugAdapter.Session

open Frontend Correlation

namespace Happening

def traceReply? (h : Happening) : Option Debuggee.Reply :=
  h.reply?.filter (·.command = "stackTrace")

/-- The stack trace with this number is given up: its timer fires, as it does at the deadline, or the
link is cut and all that is pending is released. -/
def GivesUp (number : Nat) (h : Happening) : Prop :=
  (∃ generation, h.move = .timer number generation) ∨
    h.session.operation? h.env h.move = some .drain

end Happening

def traceReplies (past : List Happening) : List Debuggee.Reply :=
  past.filterMap Happening.traceReply?

/-- A reply to a stack trace comes after the one was passed on that has as many before it as there
were replies before, and as long as that was not given up. -/
def Punctual (past : List Happening) (h : Happening) : Prop :=
  ∀ q, h.traceReply? = some q → ∃ before f since number r, past = before ++ f :: since ∧
    (passedOn before).length = (traceReplies past).length ∧ f.passed? = some (number, r) ∧
    ∀ g ∈ since, ¬ g.GivesUp number

/-- What is pending when all replies that came were punctual and named nothing that was pending. -/
structure Queued (past : List Happening) (s : Session) : Prop where
  increasing : ((passedOn past).map Prod.fst).Pairwise (· < ·)
  replied : (traceReplies past).length ≤ (passedOn past).length
  waiting : ∀ e ∈ s.pending.entries,
    e.key ∈ ((passedOn past).drop (traceReplies past).length).map Prod.fst
  kept : ∀ before f since number r, past = before ++ f :: since → f.passed? = some (number, r) →
    (traceReplies past).length ≤ (passedOn before).length →
    (∀ g ∈ since, ¬ g.GivesUp number) → ∃ e ∈ s.pending.entries, e.key = number

variable {past : List Happening} {s : Session} {h : Happening}

section Queue

/-- When a punctual reply comes the first stack trace that was not replied to is pending, and it is
the oldest. -/
theorem Queued.front (hr : Recorded past h.session) (hq : Queued past h.session)
    (hp : Punctual past h) {q : Debuggee.Reply} (ht : h.traceReply? = some q) :
    ∃ e r rest, (passedOn past).drop (traceReplies past).length = (e.key, r) :: rest ∧
      e ∈ h.session.pending.entries ∧ e.sink = r.seq ∧
      h.session.pending.oldest? "stackTrace" = some e.key := by
  obtain ⟨before, f, since, number, r, hpast, hcount, hf, hsince⟩ := hp q ht
  obtain ⟨e, he, rfl⟩ := hq.kept before f since number r hpast hf (Nat.le_of_eq hcount.symm) hsince
  have hpassed : passedOn past = passedOn before ++ (e.key, r) :: passedOn since := by
    simp [hpast, passedOn, hf]
  have hdrop : (passedOn past).drop (traceReplies past).length = (e.key, r) :: passedOn since := by
    rw [hpassed, ← hcount, List.drop_left]
  refine ⟨e, r, passedOn since, hdrop, he, ?_, ?_⟩
  · obtain ⟨r', hr', hsink⟩ := hr.pending e he
    have hin : (e.key, r) ∈ passedOn past := by
      rw [hpassed]
      exact List.mem_append_right _ List.mem_cons_self
    have hsame := List.inj_on_of_nodup_map hr.numbers hr' hin rfl
    rw [hsink, (Prod.mk.inj hsame).2]
  · refine Table.oldest_of_least he (hr.sound.command e he) fun d hd => ?_
    have hrest := hq.waiting d hd
    have hsorted : (((passedOn past).drop (traceReplies past).length).map Prod.fst).Pairwise
        (· < ·) := hq.increasing.sublist ((List.drop_sublist ..).map _)
    rw [hdrop, List.map_cons] at hrest hsorted
    rcases List.mem_cons.mp hrest with heq | hlater
    · exact Nat.le_of_eq heq.symm
    · exact Nat.le_of_lt ((List.pairwise_cons.mp hsorted).1 _ hlater)

end Queue

/-- The reply with so many before it is what the stack trace with so many before it is answered with;
what is no object counts as no frames. -/
def Delivered (past : List Happening) (s : Session) (k : Nat) (q : Debuggee.Reply) : Prop :=
  ∃ number r, (passedOn past)[k]? = some (number, r) ∧
    (number, .forRequest r.seq "stackTrace"
      (some (if q.body.isObject then q.body else emptyStackTrace))) ∈ outcomes past s

theorem Delivered.grow {k : Nat} {q : Debuggee.Reply} (hd : Delivered past h.session k q) :
    Delivered (past ++ [h]) h.next k q := by
  obtain ⟨number, r, hpassed, hin⟩ := hd
  obtain ⟨hlt, _⟩ := List.getElem?_eq_some_iff.mp hpassed
  refine ⟨number, r, ?_, outcome_grows hin⟩
  rw [passed_on_snoc, List.getElem?_append_left hlt]
  exact hpassed

def PunctualTo (k : Nat) (hist : List Happening) : Prop :=
  Throughout (fun before h => (traceReplies before).length ≤ k → Punctual before h) hist

theorem PunctualTo.all {k : Nat} (hp : PunctualTo k past) (hk : (traceReplies past).length ≤ k) :
    Throughout Punctual past := by
  intro before h after hs
  refine hp before h after hs (Nat.le_trans ?_ hk)
  rw [hs, traceReplies, traceReplies, List.filterMap_append, List.length_append]
  exact Nat.le_add_right ..

end DebugAdapter.Session
