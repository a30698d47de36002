import DebugAdapter.Bytes
import Mathlib.Data.List.Infix
import Mathlib.Data.List.TakeDrop

namespace DebugAdapter.Bytes

variable {mark : UInt8} {pattern bytes before rest : Bytes}

theorem cutAt_cons (mark b : UInt8) (bytes : Bytes) :
    cutAt mark (b :: bytes) =
      if b = mark then some ([], bytes) else (cutAt mark bytes).map fun p => (b :: p.1, p.2) := by
  simp only [cutAt, List.span_eq_takeWhile_dropWhile, List.takeWhile_cons, List.dropWhile_cons,
    bne_iff_ne, ne_eq, ite_not]
  by_cases hb : b = mark
  · simp [hb]
  · simp only [hb, if_false]
    cases bytes.dropWhile (· != mark) <;> rfl

theorem cutAt_none_iff : cutAt mark bytes = none ↔ mark ∉ bytes := by
  induction bytes with
  | nil => simp [cutAt]
  | cons b bytes ih =>
    rw [cutAt_cons]
    by_cases hb : b = mark
    · simp [hb]
    · simp [hb, ih, Ne.symm hb]

theorem cutAt_some_iff :
    cutAt mark bytes = some (before, rest) ↔ bytes = before ++ mark :: rest ∧ mark ∉ before := by
  induction bytes generalizing before with
  | nil => simp [cutAt]
  | cons b bytes ih =>
    rw [cutAt_cons]
    by_cases hb : b = mark
    · subst hb
      cases before with
      | nil => simp
      | cons c before =>
        simp only [if_true, Option.some.injEq, Prod.mk.injEq, List.nil_eq, reduceCtorEq, false_and,
          List.cons_append, List.cons.injEq, List.mem_cons, not_or, false_iff, not_and]
        exact fun hc hn => absurd hc.1 hn
    · cases before with
      | nil => simp [hb]
      | cons c before =>
        have hrest := @ih before
        simp only [hb, if_false, Option.map_eq_some_iff, Prod.mk.injEq, List.cons.injEq,
          List.cons_append, List.mem_cons, not_or, Prod.exists]
        constructor
        · rintro ⟨before', rest', hcut, ⟨rfl, rfl⟩, rfl⟩
          obtain ⟨hbytes, hnot⟩ := hrest.mp hcut
          exact ⟨⟨rfl, hbytes⟩, Ne.symm hb, hnot⟩
        · rintro ⟨⟨rfl, hbytes⟩, _, hnot⟩
          exact ⟨before, rest, hrest.mpr ⟨hbytes, hnot⟩, ⟨rfl, rfl⟩, rfl⟩

theorem cutAt_append (hc : cutAt mark bytes = some (before, rest)) (more : Bytes) :
    cutAt mark (bytes ++ more) = some (before, rest ++ more) := by
  obtain ⟨rfl, hn⟩ := cutAt_some_iff.mp hc
  exact cutAt_some_iff.mpr ⟨List.append_assoc .., hn⟩

theorem strip_some_iff : strip? pattern bytes = some rest ↔ bytes = pattern ++ rest := by
  induction pattern generalizing bytes with
  | nil => simp [strip?, eq_comm]
  | cons p pattern ih =>
    cases bytes with
    | nil => simp [strip?]
    | cons b bytes =>
      by_cases hp : p = b
      · simp [strip?, hp, ih]
      · simp [strip?, hp, Ne.symm hp]

theorem cutBeforeFrom_eq (pattern before bytes : Bytes) :
    cutBeforeFrom pattern before bytes =
      (cutBefore pattern bytes).map fun p => (before.reverse ++ p.1, p.2) := by
  unfold cutBefore
  induction bytes generalizing before with
  | nil => simp [cutBeforeFrom, Function.comp_def]
  | cons b bytes ih =>
    simp only [cutBeforeFrom]
    cases strip? pattern (b :: bytes) with
    | some rest => simp
    | none => simp [ih (b :: before), ih [b], Function.comp_def]

theorem cutBefore_cons (pattern : Bytes) (b : UInt8) (bytes : Bytes) :
    cutBefore pattern (b :: bytes) =
      match strip? pattern (b :: bytes) with
      | some rest => some ([], rest)
      | none => (cutBefore pattern bytes).map fun p => (b :: p.1, p.2) := by
  rw [cutBefore, cutBeforeFrom]
  cases strip? pattern (b :: bytes) with
  | some rest => rfl
  | none => simp [cutBeforeFrom_eq pattern [b]]

/-- There is no cut exactly if the pattern is nowhere in the bytes. -/
theorem cutBefore_none_iff :
    cutBefore pattern bytes = none ↔ ∀ x y, bytes ≠ x ++ (pattern ++ y) := by
  induction bytes with
  | nil =>
    cases pattern with
    | nil => simp [cutBefore, cutBeforeFrom, strip?]
    | cons p pattern => simp [cutBefore, cutBeforeFrom, strip?]
  | cons b bytes ih =>
    rw [cutBefore_cons]
    cases hs : strip? pattern (b :: bytes) with
    | some rest =>
      have hhere := strip_some_iff.mp hs
      simp only [reduceCtorEq, false_iff, not_forall, not_not]
      exact ⟨[], rest, hhere⟩
    | none =>
      simp only [Option.map_eq_none_iff, ih]
      constructor
      · intro hlater x y he
        cases x with
        | nil =>
          rw [List.nil_append] at he
          simp [strip_some_iff.mpr he] at hs
        | cons c x => exact hlater x y (List.cons.inj he).2
      · intro hnone x y he
        exact hnone (b :: x) y (by rw [he]; rfl)

/-- The cut falls at the first place where the pattern stands. -/
theorem cutBefore_some_iff :
    cutBefore pattern bytes = some (before, rest) ↔
      bytes = before ++ (pattern ++ rest) ∧
        ∀ x y, bytes = x ++ (pattern ++ y) → before.length ≤ x.length := by
  induction bytes generalizing before with
  | nil =>
    cases pattern with
    | nil => cases before <;> simp [cutBefore, cutBeforeFrom, strip?, eq_comm]
    | cons p pattern => simp [cutBefore, cutBeforeFrom, strip?]
  | cons b bytes ih =>
    rw [cutBefore_cons]
    cases hs : strip? pattern (b :: bytes) with
    | some here =>
      have hhere := strip_some_iff.mp hs
      simp only [Option.some.injEq, Prod.mk.injEq]
      constructor
      · rintro ⟨rfl, rfl⟩
        exact ⟨hhere, fun x y _ => Nat.zero_le _⟩
      · rintro ⟨he, hfirst⟩
        have hnil : before = [] := List.eq_nil_of_length_eq_zero (by simpa using hfirst [] here hhere)
        subst hnil
        exact ⟨rfl, List.append_cancel_left (hhere.symm.trans he)⟩
    | none =>
      have hnot : ∀ y, b :: bytes ≠ pattern ++ y := by
        intro y he
        simp [strip_some_iff.mpr he] at hs
      simp only [Option.map_eq_some_iff, Prod.mk.injEq, Prod.exists]
      constructor
      · rintro ⟨before', rest', hcut, rfl, rfl⟩
        obtain ⟨he, hfirst⟩ := ih.mp hcut
        refine ⟨by rw [he]; rfl, ?_⟩
        intro x y hx
        cases x with
        | nil => exact absurd hx (hnot y)
        | cons c x => exact Nat.succ_le_succ (hfirst x y (List.cons.inj hx).2)
      · rintro ⟨he, hfirst⟩
        cases before with
        | nil => exact absurd he (hnot rest)
        | cons c before =>
          obtain ⟨rfl, hbytes⟩ := List.cons.inj he
          refine ⟨before, rest, ih.mpr ⟨hbytes, ?_⟩, rfl, rfl⟩
          intro x y hx
          exact Nat.le_of_succ_le_succ (hfirst (b :: x) y (by rw [hx]; rfl))

/-- What stands within the bytes that are there does not depend on those that follow. -/
theorem within_of_append {more x y : Bytes} (he : bytes ++ more = x ++ (pattern ++ y))
    (hlen : x.length + pattern.length ≤ bytes.length) : ∃ z, bytes = x ++ (pattern ++ z) := by
  have hprefix : x ++ pattern <+: bytes ++ more := ⟨y, by rw [he, List.append_assoc]⟩
  obtain ⟨z, hz⟩ := List.prefix_of_prefix_length_le hprefix (List.prefix_append bytes more)
    (by simpa using hlen)
  exact ⟨z, by rw [← hz, List.append_assoc]⟩

/-- A cut that was found stays where it is when more bytes arrive. -/
theorem cutBefore_append (hc : cutBefore pattern bytes = some (before, rest)) (more : Bytes) :
    cutBefore pattern (bytes ++ more) = some (before, rest ++ more) := by
  obtain ⟨he, hfirst⟩ := cutBefore_some_iff.mp hc
  refine cutBefore_some_iff.mpr ⟨by simp [he], ?_⟩
  intro x y hx
  by_contra hlt
  have hlen : x.length + pattern.length ≤ bytes.length := by
    have hbytes := congrArg List.length he
    simp only [List.length_append] at hbytes
    omega
  obtain ⟨z, hz⟩ := within_of_append hx hlen
  exact hlt (hfirst x z hz)

theorem cutBefore_of_append {more : Bytes}
    (hc : cutBefore pattern (before ++ (pattern ++ (rest ++ more))) = some (before, rest ++ more)) :
    cutBefore pattern (before ++ (pattern ++ rest)) = some (before, rest) := by
  refine cutBefore_some_iff.mpr ⟨rfl, fun x y hx => ?_⟩
  refine (cutBefore_some_iff.mp hc).2 x (y ++ more) ?_
  simpa using congrArg (· ++ more) hx

/-- A pattern that is found only once more bytes are there reaches beyond those that were. -/
theorem cutBefore_beyond {more : Bytes} (hn : cutBefore pattern bytes = none)
    (hc : cutBefore pattern (bytes ++ more) = some (before, rest)) :
    bytes.length < before.length + pattern.length := by
  by_contra hlen
  obtain ⟨z, hz⟩ := within_of_append (cutBefore_some_iff.mp hc).1 (Nat.le_of_not_lt hlen)
  exact cutBefore_none_iff.mp hn before z hz

/-- Before the first byte of a pattern there is none. -/
theorem cutBefore_of_not_mem (hm : mark ∉ before) (pattern rest : Bytes) :
    cutBefore (mark :: pattern) (before ++ (mark :: pattern ++ rest)) = some (before, rest) := by
  induction before with
  | nil =>
    have hstrip := strip_some_iff.mpr (rfl : mark :: pattern ++ rest = mark :: pattern ++ rest)
    rw [List.nil_append, List.cons_append, cutBefore_cons, ← List.cons_append, hstrip]
  | cons b before ih =>
    rw [List.mem_cons, not_or] at hm
    obtain ⟨hb, hbefore⟩ := hm
    have hstrip : strip? (mark :: pattern) (b :: (before ++ (mark :: pattern ++ rest))) = none := by
      simp [strip?, hb]
    rw [List.cons_append, cutBefore_cons, hstrip, ih hbefore]
    rfl

theorem splitExact_none_iff {n : Nat} : splitExact? n bytes = none ↔ bytes.length < n := by
  simp [splitExact?]

theorem splitExact_some_iff {n : Nat} {body : Bytes} :
    splitExact? n bytes = some (body, rest) ↔ bytes = body ++ rest ∧ body.length = n := by
  unfold splitExact?
  by_cases hn : bytes.length < n
  · simp only [hn, if_true, reduceCtorEq, false_iff, not_and]
    rintro rfl hlen
    simp only [List.length_append] at hn
    omega
  · simp only [hn, if_false, Option.some.injEq, List.splitAt_eq, Prod.mk.injEq]
    constructor
    · rintro ⟨rfl, rfl⟩
      exact ⟨(List.take_append_drop n bytes).symm, by simp; omega⟩
    · rintro ⟨rfl, rfl⟩
      simp

theorem splitExact_append {n : Nat} {body : Bytes} (hs : splitExact? n bytes = some (body, rest))
    (more : Bytes) : splitExact? n (bytes ++ more) = some (body, rest ++ more) := by
  obtain ⟨rfl, hlen⟩ := splitExact_some_iff.mp hs
  exact splitExact_some_iff.mpr ⟨List.append_assoc .., hlen⟩

/-- A stream, and the same with units of another kind put in where one of its own begins or where it
ends. The last unit put in may be `unfinished`. -/
inductive Padded (unfinished : Prop) (Own Other : Bytes → Prop) : Bytes → Bytes → Prop
  | rest (bytes : Bytes) : Padded unfinished Own Other bytes bytes
  | begun {unit beginning : Bytes} : unfinished → Other unit → beginning <+: unit →
      Padded unfinished Own Other [] beginning
  | added {unit plain padded : Bytes} : Other unit → Padded unfinished Own Other plain padded →
      Padded unfinished Own Other plain (unit ++ padded)
  | kept {unit plain padded : Bytes} : Own unit → Padded unfinished Own Other plain padded →
      Padded unfinished Own Other (unit ++ plain) (unit ++ padded)

end DebugAdapter.Bytes
