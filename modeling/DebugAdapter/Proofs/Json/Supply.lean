import DebugAdapter.Json.Basic
import Mathlib.Algebra.Group.Int.Defs
import Mathlib.Algebra.Group.Nat.Defs
import Mathlib.Logic.Function.Basic

namespace DebugAdapter.Json

variable {α : Type}

/-- `value` is what the field `name` holds, if that is of the form and counts, and else the
default. -/
def Supplies (body : Json) (name : String) (form : α → Json) (counts : α → Prop)
    (default value : α) : Prop :=
  (body.field? name = some (form value) ∧ counts value) ∨
    (value = default ∧ ∀ other, body.field? name = some (form other) → ¬ counts other)

variable {body : Json} {name : String} {form : α → Json} {counts : α → Prop} {default value : α}

/-- What is supplied is what was found, and what was found is all that counts. -/
theorem supplies_iff {found : Option α} (hform : Function.Injective form)
    (hfound : ∀ a, found = some a ↔ body.field? name = some (form a) ∧ counts a) :
    body.Supplies name form counts default value ↔ found.getD default = value := by
  cases found with
  | none =>
    have hnone : ∀ other, body.field? name = some (form other) → ¬ counts other := by
      intro other hfield hcounts
      cases (hfound other).mpr ⟨hfield, hcounts⟩
    constructor
    · rintro (⟨hfield, hcounts⟩ | ⟨rfl, _⟩)
      · exact absurd hcounts (hnone value hfield)
      · rfl
    · rintro rfl
      exact Or.inr ⟨rfl, hnone⟩
  | some a =>
    obtain ⟨hfield, hcounts⟩ := (hfound a).mp rfl
    constructor
    · rintro (⟨hvalue, _⟩ | ⟨_, hnone⟩)
      · exact hform (Option.some.inj (hfield.symm.trans hvalue))
      · exact absurd hcounts (hnone a hfield)
    · rintro rfl
      exact Or.inl ⟨hfield, hcounts⟩

/-- A reader that takes the values of a form, as far as they are valid, finds those in a field. -/
theorem bind_read_iff {read : Json → Option α} {valid : α → Prop}
    (hread : ∀ j a, read j = some a ↔ j = form a ∧ valid a) (a : α) :
    (body.field? name).bind read = some a ↔ body.field? name = some (form a) ∧ valid a := by
  rw [Option.bind_eq_some_iff]
  constructor
  · rintro ⟨j, hfield, hj⟩
    obtain ⟨rfl, hvalid⟩ := (hread j a).mp hj
    exact ⟨hfield, hvalid⟩
  · rintro ⟨hfield, hvalid⟩
    exact ⟨form a, hfield, (hread _ a).mpr ⟨rfl, hvalid⟩⟩

theorem string_injective : Function.Injective string :=
  fun _ _ h => string.inj h

theorem array_injective : Function.Injective array :=
  fun _ _ h => array.inj h

theorem int_injective : Function.Injective int :=
  fun _ _ h => Number.int.inj (number.inj h)

theorem nat_injective : Function.Injective nat :=
  fun _ _ h => Int.ofNat.inj (int_injective h)

theorem string_read (j : Json) (text : String) :
    j.string? = some text ↔ j = .string text ∧ True := by
  cases j <;> simp [string?]

theorem array_read (j : Json) (items : List Json) :
    j.array? = some items ↔ j = .array items ∧ True := by
  cases j <;> simp [array?]

theorem signedWord_read (j : Json) (n : Int) :
    j.signedWord? = some n ↔ j = .int n ∧ -2 ^ 63 ≤ n ∧ n < 2 ^ 63 := by
  rcases j with _ | _ | (i | f) | _ | _ | _ <;>
    simp only [signedWord?, int, reduceCtorEq, false_and, number.injEq, Number.int.injEq]
  have hlimit : ((Nat.pow 2 63 : Nat) : Int) = 2 ^ 63 := rfl
  rw [hlimit]
  split
  · rename_i hi
    constructor
    · rintro ⟨⟩
      exact ⟨rfl, hi⟩
    · rintro ⟨rfl, _⟩
      rfl
  · rename_i hi
    constructor
    · nofun
    · rintro ⟨rfl, hn⟩
      exact absurd hn hi

theorem word_read (j : Json) (n : Nat) : j.word? = some n ↔ j = .nat n ∧ n < 2 ^ 64 := by
  rcases j with _ | _ | (i | f) | _ | _ | _ <;>
    simp only [word?, nat, int, reduceCtorEq, false_and, number.injEq, Number.int.injEq]
  have hlimit : ((Nat.pow 2 64 : Nat) : Int) = 2 ^ 64 := rfl
  rw [hlimit]
  split
  · rename_i hi
    rw [Option.some.injEq]
    omega
  · rename_i hi
    constructor
    · nofun
    · rintro ⟨rfl, hn⟩
      omega

/-- Whatever a field holds counts. -/
theorem supplies_any {default value : Json} :
    body.Supplies name id (fun _ => True) default value ↔ (body.field? name).getD default = value :=
  supplies_iff Function.injective_id fun _ => (and_iff_left trivial).symm

theorem supplies_text {default text : String} :
    body.Supplies name string (fun _ => True) default text ↔
      ((body.field? name).bind string?).getD default = text :=
  supplies_iff string_injective (bind_read_iff string_read)

theorem supplies_items {default items : List Json} :
    body.Supplies name array (fun _ => True) default items ↔
      ((body.field? name).bind array?).getD default = items :=
  supplies_iff array_injective (bind_read_iff array_read)

theorem supplies_word {default n : Nat} :
    body.Supplies name nat (· < 2 ^ 64) default n ↔
      ((body.field? name).bind word?).getD default = n :=
  supplies_iff nat_injective (bind_read_iff word_read)

/-- Of what is read some may not count. -/
theorem filter_read_iff {read : Json → Option α} {valid : α → Prop} {p : α → Bool}
    (hread : ∀ j a, read j = some a ↔ j = form a ∧ valid a) (a : α) :
    ((body.field? name).bind read).filter p = some a ↔
      body.field? name = some (form a) ∧ p a = true ∧ valid a := by
  rw [Option.filter_eq_some_iff, bind_read_iff hread, and_assoc, and_comm (a := valid a)]

end DebugAdapter.Json
