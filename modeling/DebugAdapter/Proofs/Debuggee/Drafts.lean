import DebugAdapter.Debuggee.Record
import Mathlib.Data.List.Perm.Basic

namespace DebugAdapter.Debuggee.Record

open Json

def valuesOf (name : String) (fields : Fields) : List Json :=
  (fields.filter (·.1 = name)).map (·.2)

/-- What a place for a value holds after `values` were put there. It takes one at most. -/
inductive Fills {α : Type} (read : Json → Except ReadError α) :
    Option α → List Json → Option α → Prop where
  | kept (slot : Option α) : Fills read slot [] slot
  | set {value : Json} {a : α} (valid : read value = .ok a) : Fills read none [value] (some a)

/-- What a field with these values counts for, or the default if it has none. -/
def Counts {α : Type} (read : Json → Except ReadError α) (values : List Json) (default a : α) :
    Prop :=
  ∃ slot, Fills read none values slot ∧ slot.getD default = a

/-- What the fields make of the draft of an event. -/
@[mk_iff]
structure EventPuts (d : EventDraft) (fields : Fields) (d' : EventDraft) : Prop where
  event : Fills Value.toText d.event (valuesOf "event" fields) d'.event
  body : Fills .ok d.body (valuesOf "body" fields) d'.body

@[mk_iff]
structure ReplyPuts (d : ReplyDraft) (fields : Fields) (d' : ReplyDraft) : Prop where
  command : Fills Value.toText d.command (valuesOf "command" fields) d'.command
  body : Fills .ok d.body (valuesOf "body" fields) d'.body
  success : Fills Value.toFlag d.success (valuesOf "success" fields) d'.success
  requestSeq : Fills (Value.toOptional Value.toWord) d.requestSeq (valuesOf "request_seq" fields)
    d'.requestSeq
  message : Fills (Value.toOptional Value.toText) d.message (valuesOf "message" fields) d'.message

variable {α σ : Type} {read : Json → Except ReadError α} {old new : Option α} {default a : α}
  {value : Json} {values first second : List Json} {name other : String} {fields : Fields}
  {r : Record}

theorem fills_nil : Fills read old [] new ↔ new = old := by
  constructor
  · rintro ⟨_⟩
    rfl
  · rintro rfl
    exact .kept new

/-- A field is filled once, and by a value that can be read. -/
theorem fills_one :
    Fills read old [value] new ↔ old = none ∧ ∃ a, read value = .ok a ∧ new = some a := by
  constructor
  · rintro (_ | valid)
    exact ⟨rfl, _, valid, rfl⟩
  · rintro ⟨rfl, a, valid, rfl⟩
    exact .set valid

theorem Fills.length_le (h : Fills read old values new) : values.length ≤ 1 := by
  cases h <;> simp

/-- Values that come one after the other are put there one after the other. -/
theorem fills_append : Fills read old (first ++ second) new ↔
    ∃ slot, Fills read old first slot ∧ Fills read slot second new := by
  constructor
  · intro h
    have hlength := h.length_le
    rw [List.length_append] at hlength
    by_cases hfirst : first = []
    · subst hfirst
      exact ⟨old, .kept old, h⟩
    · have hpos := List.length_pos_iff.mpr hfirst
      obtain rfl : second = [] := List.eq_nil_of_length_eq_zero (by omega)
      rw [List.append_nil] at h
      exact ⟨new, h, .kept new⟩
  · rintro ⟨slot, hfirst, hsecond⟩
    cases hfirst with
    | kept => exact hsecond
    | set valid =>
      cases hsecond with
      | kept => exact .set valid

/-- The order among the values of one field does not matter, since there is at most one. -/
theorem Fills.perm (h : Fills read old first new) (hp : first.Perm second) :
    Fills read old second new := by
  cases h with
  | kept =>
    rw [← hp.nil_eq]
    exact .kept _
  | set valid =>
    rw [← List.singleton_perm.mp hp]
    exact .set valid

/-- A value that is read as the default counts for no more than none. -/
theorem counts_default (hread : read value = .ok default) :
    Counts read [value] default a ↔ Counts read [] default a := by
  simp only [Counts, fills_one, fills_nil, true_and, hread, Except.ok.injEq, exists_eq_left',
    exists_eq_left, Option.getD_some, Option.getD_none]

theorem valuesOf_append (name : String) (first second : Fields) :
    valuesOf name (first ++ second) = valuesOf name first ++ valuesOf name second := by
  rw [valuesOf, valuesOf, valuesOf, ← List.map_append, ← List.filter_append]

theorem valuesOf_one (name other : String) (value : Json) :
    valuesOf name [(other, value)] = if other = name then [value] else [] := by
  by_cases h : other = name <;> simp [valuesOf, h]

theorem valuesOf_of_names (h : ∀ f ∈ fields, f.1 ≠ name) :
    valuesOf name fields = [] := by
  rw [valuesOf, List.filter_eq_nil_iff.mpr]
  · rfl
  · simpa using h

theorem valuesOf_perm {fields' : Fields} (hp : fields.Perm fields') (name : String) :
    (valuesOf name fields).Perm (valuesOf name fields') :=
  (hp.filter _).map _

/-- A field is set that was not set before. -/
theorem set_ok_iff (read : Json → Except ReadError α) (build : α → σ) {slot : Option α} {d : σ} :
    (do setOnce name slot; return build (← read value)) = Except.ok d ↔
      slot = none ∧ ∃ a, read value = .ok a ∧ build a = d := by
  cases slot with
  | some _ => simp [setOnce, bind, Except.bind]
  | none => cases read value <;> simp [setOnce, bind, Except.bind, pure, Except.pure]

/-- One field goes to its own place, if there is one. -/
theorem event_set_iff {d d' : EventDraft} {field : String × Json} :
    EventDraft.set d field.1 field.2 = .ok d' ↔ EventPuts d [field] d' := by
  obtain ⟨name, value⟩ := field
  obtain ⟨event, body⟩ := d
  obtain ⟨event', body'⟩ := d'
  unfold EventDraft.set
  rw [eventPuts_iff]
  by_cases hevent : name = "event"
  · subst hevent
    simp only [valuesOf_one, String.reduceEq, if_true, if_false, fills_one, fills_nil]
    refine (set_ok_iff Value.toText fun a => (⟨some a, body⟩ : EventDraft)).trans ?_
    grind
  by_cases hbody : name = "body"
  · subst hbody
    simp only [valuesOf_one, String.reduceEq, if_true, if_false, fills_one, fills_nil]
    refine (set_ok_iff .ok fun a => (⟨event, some a⟩ : EventDraft)).trans ?_
    grind
  · simp only [valuesOf_one, hevent, hbody, if_false, fills_nil, pure, Except.pure,
      Except.ok.injEq, EventDraft.mk.injEq, eq_comm]

/-- One field goes to its own place, if there is one. -/
theorem reply_set_iff {d d' : ReplyDraft} {field : String × Json} :
    ReplyDraft.set d field.1 field.2 = .ok d' ↔ ReplyPuts d [field] d' := by
  obtain ⟨name, value⟩ := field
  obtain ⟨command, body, success, requestSeq, message⟩ := d
  obtain ⟨command', body', success', requestSeq', message'⟩ := d'
  unfold ReplyDraft.set
  rw [replyPuts_iff]
  by_cases hcommand : name = "command"
  · subst hcommand
    simp only [valuesOf_one, String.reduceEq, if_true, if_false, fills_one, fills_nil]
    refine (set_ok_iff Value.toText fun a =>
      (⟨some a, body, success, requestSeq, message⟩ : ReplyDraft)).trans ?_
    grind
  by_cases hbody : name = "body"
  · subst hbody
    simp only [valuesOf_one, String.reduceEq, if_true, if_false, fills_one, fills_nil]
    refine (set_ok_iff .ok fun a =>
      (⟨command, some a, success, requestSeq, message⟩ : ReplyDraft)).trans ?_
    grind
  by_cases hsuccess : name = "success"
  · subst hsuccess
    simp only [valuesOf_one, String.reduceEq, if_true, if_false, fills_one, fills_nil]
    refine (set_ok_iff Value.toFlag fun a =>
      (⟨command, body, some a, requestSeq, message⟩ : ReplyDraft)).trans ?_
    grind
  by_cases hseq : name = "request_seq"
  · subst hseq
    simp only [valuesOf_one, String.reduceEq, if_true, if_false, fills_one, fills_nil]
    refine (set_ok_iff (Value.toOptional Value.toWord) fun a =>
      (⟨command, body, success, some a, message⟩ : ReplyDraft)).trans ?_
    grind
  by_cases hmessage : name = "message"
  · subst hmessage
    simp only [valuesOf_one, String.reduceEq, if_true, if_false, fills_one, fills_nil]
    refine (set_ok_iff (Value.toOptional Value.toText) fun a =>
      (⟨command, body, success, requestSeq, some a⟩ : ReplyDraft)).trans ?_
    grind
  · simp only [valuesOf_one, hcommand, hbody, hsuccess, hseq, hmessage, if_false, fills_nil, pure,
      Except.pure, Except.ok.injEq, ReplyDraft.mk.injEq, eq_comm]

/-- Fields that are put one by one are put as a whole. -/
theorem fold_iff (set : σ → String × Json → Except ReadError σ) {Puts : σ → Fields → σ → Prop}
    (hnil : ∀ d d', Puts d [] d' ↔ d' = d) (hone : ∀ d f d', set d f = .ok d' ↔ Puts d [f] d')
    (happend : ∀ d f fs d', Puts d ([f] ++ fs) d' ↔ ∃ next, Puts d [f] next ∧ Puts next fs d')
    {d d' : σ} : fields.foldlM set d = .ok d' ↔ Puts d fields d' := by
  induction fields generalizing d with
  | nil =>
    rw [List.foldlM_nil, hnil]
    exact ⟨fun h => (Except.ok.inj h).symm, fun h => congrArg Except.ok h.symm⟩
  | cons f fields ih =>
    rw [List.foldlM_cons, ← List.singleton_append, happend]
    cases hset : set d f with
    | error e =>
      constructor
      · nofun
      · rintro ⟨next, hnext, _⟩
        cases hset.symm.trans ((hone d f next).mpr hnext)
    | ok next =>
      refine ih.trans ⟨fun h => ⟨next, (hone d f next).mp hset, h⟩, ?_⟩
      rintro ⟨next', hnext', h⟩
      cases hset.symm.trans ((hone d f next').mpr hnext')
      exact h

/-- The fields of an event end in a draft exactly if each fills its place in it. -/
theorem event_fold_iff {d d' : EventDraft} :
    fields.foldlM (fun d field => EventDraft.set d field.1 field.2) d = .ok d' ↔
      EventPuts d fields d' := by
  refine fold_iff (fun d f => EventDraft.set d f.1 f.2) (fun d d' => ?_)
    (fun d f d' => event_set_iff) fun d f fs d' => ?_
  · obtain ⟨event, body⟩ := d
    obtain ⟨event', body'⟩ := d'
    rw [eventPuts_iff]
    simp only [valuesOf, List.filter_nil, List.map_nil, fills_nil, EventDraft.mk.injEq]
  · simp only [eventPuts_iff, valuesOf_append, fills_append]
    constructor
    · rintro ⟨⟨event, he, he'⟩, body, hb, hb'⟩
      exact ⟨⟨event, body⟩, ⟨he, hb⟩, he', hb'⟩
    · rintro ⟨⟨event, body⟩, ⟨he, hb⟩, he', hb'⟩
      exact ⟨⟨event, he, he'⟩, body, hb, hb'⟩

theorem reply_fold_iff {d d' : ReplyDraft} :
    fields.foldlM (fun d field => ReplyDraft.set d field.1 field.2) d = .ok d' ↔
      ReplyPuts d fields d' := by
  refine fold_iff (fun d f => ReplyDraft.set d f.1 f.2) (fun d d' => ?_)
    (fun d f d' => reply_set_iff) fun d f fs d' => ?_
  · obtain ⟨command, body, success, requestSeq, message⟩ := d
    obtain ⟨command', body', success', requestSeq', message'⟩ := d'
    rw [replyPuts_iff]
    simp only [valuesOf, List.filter_nil, List.map_nil, fills_nil, ReplyDraft.mk.injEq]
  · simp only [replyPuts_iff, valuesOf_append, fills_append]
    constructor
    · rintro ⟨⟨command, hc, hc'⟩, ⟨body, hb, hb'⟩, ⟨success, hs, hs'⟩, ⟨requestSeq, hq, hq'⟩,
        message, hm, hm'⟩
      exact ⟨⟨command, body, success, requestSeq, message⟩, ⟨hc, hb, hs, hq, hm⟩, hc', hb', hs', hq',
        hm'⟩
    · rintro ⟨⟨command, body, success, requestSeq, message⟩, ⟨hc, hb, hs, hq, hm⟩, hc', hb', hs',
        hq', hm'⟩
      exact ⟨⟨command, hc, hc'⟩, ⟨body, hb, hb'⟩, ⟨success, hs, hs'⟩, ⟨requestSeq, hq, hq'⟩,
        message, hm, hm'⟩

theorem bind_ok_iff {x : Except ReadError σ} {f : σ → Except ReadError Record} :
    (do f (← x)) = Except.ok r ↔ ∃ d, x = .ok d ∧ f d = .ok r := by
  cases x <;> simp [bind, Except.bind]

/-- An event has a name, and perhaps a body. -/
theorem ofFields_event_iff : ofFields .event fields = .ok r ↔
    ∃ name body, Fills Value.toText none (valuesOf "event" fields) (some name) ∧
      Counts .ok (valuesOf "body" fields) .null body ∧ r = .event name body := by
  refine bind_ok_iff.trans ⟨?_, ?_⟩
  · rintro ⟨⟨event, body⟩, hfold, hfinish⟩
    obtain ⟨hevent, hbody⟩ := event_fold_iff.mp hfold
    cases event with
    | none => cases hfinish
    | some name =>
      cases hfinish
      exact ⟨name, _, hevent, ⟨body, hbody, rfl⟩, rfl⟩
  · rintro ⟨name, _, hevent, ⟨body, hbody, rfl⟩, rfl⟩
    exact ⟨⟨some name, body⟩, event_fold_iff.mpr ⟨hevent, hbody⟩, rfl⟩

/-- A reply names its command, and anything else that it leaves out has a default. -/
theorem ofFields_reply_iff : ofFields .reply fields = .ok r ↔
    ∃ reply : Reply, Fills Value.toText none (valuesOf "command" fields) (some reply.command) ∧
      Counts .ok (valuesOf "body" fields) .null reply.body ∧
      Counts Value.toFlag (valuesOf "success" fields) true reply.success ∧
      Counts (Value.toOptional Value.toWord) (valuesOf "request_seq" fields) none reply.requestSeq ∧
      Counts (Value.toOptional Value.toText) (valuesOf "message" fields) none reply.message ∧
      r = .reply reply := by
  have hjoin {β : Type} (slot : Option (Option β)) : slot.getD none = slot.join := by
    cases slot <;> rfl
  refine bind_ok_iff.trans ⟨?_, ?_⟩
  · rintro ⟨⟨command, body, success, requestSeq, message⟩, hfold, hfinish⟩
    obtain ⟨hcommand, hbody, hsuccess, hseq, hmessage⟩ := reply_fold_iff.mp hfold
    cases command with
    | none => cases hfinish
    | some name =>
      cases hfinish
      exact ⟨_, hcommand, ⟨body, hbody, rfl⟩, ⟨success, hsuccess, rfl⟩, ⟨requestSeq, hseq, hjoin _⟩,
        ⟨message, hmessage, hjoin _⟩, rfl⟩
  · rintro ⟨⟨command, _, _, _, _⟩, hcommand, ⟨body, hbody, rfl⟩, ⟨success, hsuccess, rfl⟩,
      ⟨requestSeq, hseq, rfl⟩, ⟨message, hmessage, rfl⟩, rfl⟩
    refine ⟨⟨some command, body, success, requestSeq, message⟩,
      reply_fold_iff.mpr ⟨hcommand, hbody, hsuccess, hseq, hmessage⟩, ?_⟩
    rw [hjoin, hjoin]
    rfl

theorem Counts.perm (h : Counts read first default a) (hp : first.Perm second) :
    Counts read second default a := by
  obtain ⟨slot, hfills, ha⟩ := h
  exact ⟨slot, hfills.perm hp, ha⟩

def fieldNames : List String :=
  ["event", "command", "body", "success", "request_seq", "message"]

/-- Only the fields of these names count, and their order does not. -/
theorem ofFields_perm {kind : Kind} {fields' : Fields}
    (hp : ∀ name ∈ fieldNames, (valuesOf name fields).Perm (valuesOf name fields'))
    (hr : ofFields kind fields = .ok r) : ofFields kind fields' = .ok r := by
  simp only [fieldNames, List.forall_mem_cons, List.not_mem_nil, false_implies, implies_true,
    and_true] at hp
  obtain ⟨pevent, pcommand, pbody, psuccess, pseq, pmessage⟩ := hp
  cases kind with
  | event =>
    obtain ⟨name, body, hevent, hbody, rfl⟩ := ofFields_event_iff.mp hr
    exact ofFields_event_iff.mpr ⟨name, body, hevent.perm pevent, hbody.perm pbody, rfl⟩
  | reply =>
    obtain ⟨reply, hcommand, hbody, hsuccess, hseq, hmessage, rfl⟩ := ofFields_reply_iff.mp hr
    exact ofFields_reply_iff.mpr ⟨reply, hcommand.perm pcommand, hbody.perm pbody,
      hsuccess.perm psuccess, hseq.perm pseq, hmessage.perm pmessage, rfl⟩

def defaults : Fields :=
  [("body", .null), ("success", .bool true), ("request_seq", .null), ("message", .null)]

/-- A field that is left out counts as if it were there with its default. -/
theorem ofFields_default {kind : Kind} {field : String × Json} (hf : field ∈ defaults)
    (hnone : valuesOf field.1 fields = []) :
    ofFields kind (field :: fields) = .ok r ↔ ofFields kind fields = .ok r := by
  have hcons (name : String) :
      valuesOf name (field :: fields) = valuesOf name [field] ++ valuesOf name fields :=
    valuesOf_append name [field] fields
  have hbody : Counts .ok [.null] .null = Counts .ok [] Json.null :=
    funext fun _ => propext (counts_default rfl)
  have hsuccess : Counts Value.toFlag [.bool true] true = Counts Value.toFlag [] true :=
    funext fun _ => propext (counts_default rfl)
  have habsent {β : Type} (read : Json → Except ReadError β) :
      Counts (Value.toOptional read) [.null] none = Counts (Value.toOptional read) [] none :=
    funext fun _ => propext (counts_default rfl)
  simp only [defaults, List.mem_cons, List.not_mem_nil, or_false] at hf
  cases kind with
  | event =>
    rw [ofFields_event_iff, ofFields_event_iff]
    rcases hf with rfl | rfl | rfl | rfl <;>
      simp only [hcons, valuesOf_one, String.reduceEq, if_true, if_false, List.nil_append, hnone,
        List.append_nil, hbody]
  | reply =>
    rw [ofFields_reply_iff, ofFields_reply_iff]
    rcases hf with rfl | rfl | rfl | rfl <;>
      simp only [hcons, valuesOf_one, String.reduceEq, if_true, if_false, List.nil_append, hnone,
        List.append_nil, hbody, hsuccess, habsent]

end DebugAdapter.Debuggee.Record
