import DebugAdapter.Proofs.Paths
import Mathlib.Data.List.Infix

namespace DebugAdapter.Workspace

open DebugAdapter.Path

/-- The components of a root begin those of a path. -/
def Contains (root path : String) : Prop :=
  components root <+: components path

variable {roots : List String} {path root : String}

theorem within_iff : isWithin path root = true ↔ Contains root path :=
  List.isPrefixOf_iff_prefix

theorem deepest_none_iff : deepest roots = none ↔ roots = [] := by
  cases roots with
  | nil => exact iff_of_true rfl rfl
  | cons first roots =>
    unfold deepest
    split
    · simp
    · split <;> simp

/-- The deepest root is one of them, and none has more components. -/
theorem deepest_some (hd : deepest roots = some root) : root ∈ roots ∧
    ∀ other ∈ roots, (components other).length ≤ (components root).length := by
  induction roots generalizing root with
  | nil => cases hd
  | cons first roots ih =>
    unfold deepest at hd
    split at hd
    · rename_i hnone
      cases hd
      simp [deepest_none_iff.mp hnone]
    · rename_i last hlast
      obtain ⟨hmem, hall⟩ := ih hlast
      split at hd
      · rename_i hlt
        cases hd
        refine ⟨List.mem_cons_self, List.forall_mem_cons.mpr ⟨Nat.le_refl _, ?_⟩⟩
        exact fun other ho => Nat.le_trans (hall other ho) (Nat.le_of_lt hlt)
      · rename_i hle
        cases hd
        exact ⟨List.mem_cons_of_mem _ hmem,
          List.forall_mem_cons.mpr ⟨Nat.le_of_not_lt hle, hall⟩⟩

theorem owning_none_iff : owningRoot roots path = none ↔ ∀ root ∈ roots, ¬ Contains root path := by
  rw [owningRoot, deepest_none_iff, List.filter_eq_nil_iff]
  simp only [within_iff]

/-- Of two roots that contain a path the one with fewer components contains the other. -/
theorem owning_some (ho : owningRoot roots path = some root) :
    root ∈ roots ∧ Contains root path ∧
      ∀ other ∈ roots, Contains other path → Contains other root := by
  obtain ⟨hmem, hall⟩ := deepest_some ho
  rw [List.mem_filter, within_iff] at hmem
  refine ⟨hmem.1, hmem.2, fun other hother hc => ?_⟩
  have hlength := hall other (List.mem_filter.mpr ⟨hother, within_iff.mpr hc⟩)
  exact List.prefix_of_prefix_length_le hc hmem.2 hlength

/-- Roots that contain one another have the same components. -/
theorem Contains.antisymm {other : String} (h : Contains root other) (h' : Contains other root) :
    components root = components other :=
  h.eq_of_length_le h'.length_le

theorem owning_respelled {roots' : List String} (hsame : ∀ root, root ∈ roots' ↔ root ∈ roots) :
    Option.Rel (fun root other => Respelled root.toList other.toList)
      (owningRoot roots' path) (owningRoot roots path) := by
  cases ho : owningRoot roots path with
  | none =>
    have hnone := owning_none_iff.mp ho
    rw [owning_none_iff.mpr fun root hr => hnone root ((hsame root).mp hr)]
    exact .none
  | some root =>
    obtain ⟨hmem, hc, hall⟩ := owning_some ho
    cases ho' : owningRoot roots' path with
    | none => exact absurd hc (owning_none_iff.mp ho' root ((hsame root).mpr hmem))
    | some other =>
      obtain ⟨hmem', hc', hall'⟩ := owning_some ho'
      have hcontains := hall other ((hsame other).mp hmem') hc'
      have hcontained := hall' root ((hsame root).mpr hmem) hc
      exact .some ((components_eq_iff other root).mp (hcontains.antisymm hcontained))

/-- A program has a root as soon as there is any. -/
theorem resolve_none_iff : resolve roots path = none ↔ roots = [] := by
  cases roots with
  | nil => exact iff_of_true rfl rfl
  | cons root roots =>
    unfold resolve
    cases owningRoot (root :: roots) path <;> simp

/-- A program belongs to no root exactly if none contains it. Otherwise it belongs to one of them, as
that is spelled, which contains it and lies within every other that does. Other roots in other order
and number, but the same ones, decide at most about the spelling. Where there is any root there is
one to run the program in: the one that it belongs to, or else the first. What contains what is
compared by components, and these are the same exactly for two spellings of a path. -/
theorem owned_by_deepest_root (roots : List String) (path : String) :
    let owner := owningRoot roots path
    (owner = none ↔ ∀ root ∈ roots, ¬ Contains root path) ∧
    (∀ root, owner = some root → root ∈ roots ∧ Contains root path ∧
      ∀ other ∈ roots, Contains other path → Contains other root) ∧
    (∀ roots', (∀ root, root ∈ roots' ↔ root ∈ roots) →
      Option.Rel (fun root other => Respelled root.toList other.toList)
        (owningRoot roots' path) owner) ∧
    (resolve roots path = none ↔ roots = []) ∧
    (∀ root, owner = some root → resolve roots path = some root) ∧
    (owner = none → resolve roots path = roots.head?) ∧
    ∀ first second : String,
      components first = components second ↔ Respelled first.toList second.toList := by
  intro owner
  refine ⟨owning_none_iff, fun root ho => owning_some ho, fun roots' hsame => owning_respelled hsame,
    resolve_none_iff, ?_, ?_, components_eq_iff⟩
  · intro root ho
    have howner : owningRoot roots path = some root := ho
    simp [resolve, howner]
  · intro ho
    have howner : owningRoot roots path = none := ho
    simp [resolve, howner]

example : owningRoot ["/w", "/w//app/.", "/w/ap"] "/w/./app/main" = some "/w//app/." := by decide

end DebugAdapter.Workspace
