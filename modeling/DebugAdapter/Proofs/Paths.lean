import DebugAdapter.Workspace
import Mathlib.Data.List.Basic

namespace DebugAdapter.Path

/-- Two spellings of a path. A slash may be repeated, and a dot may stand between two slashes. Both
may stand at the end of a path that is not empty. -/
inductive Respelled : List Char → List Char → Prop
  | refl (cs : List Char) : Respelled cs cs
  | symm {cs ds : List Char} : Respelled cs ds → Respelled ds cs
  | trans {cs ds es : List Char} : Respelled cs ds → Respelled ds es → Respelled cs es
  | slash (cs ds : List Char) : Respelled (cs ++ '/' :: '/' :: ds) (cs ++ '/' :: ds)
  | dot (cs ds : List Char) : Respelled (cs ++ '/' :: '.' :: '/' :: ds) (cs ++ '/' :: ds)
  | lastSlash (cs : List Char) : cs ≠ [] → Respelled (cs ++ ['/']) cs
  | lastDot (cs : List Char) : cs ≠ [] → Respelled (cs ++ ['/', '.']) cs

/-- The parts of a path that name something. -/
def named (cs : List Char) : List (List Char) :=
  (partsFrom [] cs).filter isNamed

def attach (cs part : List Char) : List Char :=
  if cs = [] ∨ cs = ['/'] then cs ++ part else cs ++ '/' :: part

/-- The shortest path with these components. -/
def spell (parts : List (List Char)) : List Char :=
  parts.foldl attach []

variable {cs ds part : List Char}

section Parts

theorem parts_append (part cs ds : List Char) :
    partsFrom part (cs ++ '/' :: ds) = partsFrom part cs ++ partsFrom [] ds := by
  fun_induction partsFrom part cs with
  | case1 part => rfl
  | case2 part cs ih => simp [partsFrom, ih]
  | case3 part c cs hc ih => simp [partsFrom, ih]

theorem parts_plain (part : List Char) (hc : '/' ∉ cs) :
    partsFrom part cs = [part.reverse ++ cs] := by
  fun_induction partsFrom part cs with
  | case1 part => simp
  | case2 part cs => simp at hc
  | case3 part c cs _ ih => simp [ih (List.not_mem_of_not_mem_cons hc)]

theorem named_append (cs ds : List Char) : named (cs ++ '/' :: ds) = named cs ++ named ds := by
  simp [named, parts_append]

theorem named_plain (hc : '/' ∉ cs) : named cs = if isNamed cs then [cs] else [] := by
  simp [named, parts_plain [] hc, List.filter_cons]

end Parts

section Components

theorem parts_ne_nil (part cs : List Char) : partsFrom part cs ≠ [] := by
  fun_induction partsFrom part cs with
  | case1 | case2 => simp
  | case3 part c cs hc ih => exact ih

theorem components_plain (hc : '/' ∉ cs) :
    components (.ofList cs) = if cs = [] then [] else [cs] := by
  by_cases hcs : cs = []
  · subst cs
    rfl
  · simp [components, parts_plain [] hc, hcs]

/-- What comes behind a slash adds the parts that name something. -/
theorem components_append (cs ds : List Char) :
    components (.ofList (cs ++ '/' :: ds)) =
      (if cs = [] then [['/']] else components (.ofList cs)) ++ named ds := by
  by_cases hcs : cs = []
  · simp [components, named, hcs, partsFrom]
  · obtain ⟨first, parts, hparts⟩ := List.exists_cons_of_ne_nil (parts_ne_nil [] cs)
    by_cases hfirst : first = [] <;>
      simp [components, named, parts_append, hparts, hcs, hfirst]

theorem components_ne_nil (hcs : cs ≠ []) : components (.ofList cs) ≠ [] := by
  obtain ⟨first, parts, hparts⟩ := List.exists_cons_of_ne_nil (parts_ne_nil [] cs)
  by_cases hfirst : first = [] <;> simp [components, hparts, hfirst, hcs]

/-- A respelled path has the same components. -/
theorem Respelled.components_eq (h : Respelled cs ds) :
    components (.ofList cs) = components (.ofList ds) := by
  induction h with
  | refl cs => rfl
  | symm _ ih => exact ih.symm
  | trans _ _ ih ih' => exact ih.trans ih'
  | slash cs ds =>
    rw [components_append, components_append, ← List.nil_append ('/' :: ds), named_append]
    rfl
  | dot cs ds =>
    rw [components_append, components_append]
    exact congrArg _ (named_append ['.'] ds)
  | lastSlash cs hcs =>
    rw [components_append, if_neg hcs]
    exact List.append_nil _
  | lastDot cs hcs =>
    rw [components_append, if_neg hcs]
    exact List.append_nil _

end Components

section Spelling

theorem spell_append (parts : List (List Char)) (part : List Char) :
    spell (parts ++ [part]) = attach (spell parts) part := by
  simp [spell]

theorem Respelled.append (h : Respelled cs ds) (part : List Char) :
    Respelled (cs ++ '/' :: part) (ds ++ '/' :: part) := by
  induction h with
  | refl cs => exact .refl _
  | symm _ ih => exact ih.symm
  | trans _ _ ih ih' => exact ih.trans ih'
  | slash cs ds => simpa using Respelled.slash cs (ds ++ '/' :: part)
  | dot cs ds => simpa using Respelled.dot cs (ds ++ '/' :: part)
  | lastSlash cs _ => simpa using Respelled.slash cs part
  | lastDot cs _ => simpa using Respelled.dot cs part

theorem unnamed_cases (hp : isNamed part = false) : part = [] ∨ part = ['.'] := by
  by_contra hnot
  simp_all [isNamed]

/-- A part that names nothing may be left out at the end. -/
theorem respelled_unnamed (hcs : cs ≠ []) (hp : isNamed part = false) :
    Respelled (cs ++ '/' :: part) cs := by
  rcases unnamed_cases hp with rfl | rfl
  · exact .lastSlash cs hcs
  · exact .lastDot cs hcs

theorem respelled_root (hp : isNamed part = false) : Respelled ('/' :: part) ['/'] := by
  rcases unnamed_cases hp with rfl | rfl
  · exact .refl _
  · have hslash : Respelled ['/', '.', '/'] ['/', '.'] := .lastSlash ['/', '.'] (by simp)
    exact hslash.symm.trans (.dot [] [])

theorem respelled_attach (h : Respelled cs ds) (hds : ds ≠ []) (part : List Char) :
    Respelled (cs ++ '/' :: part) (attach ds part) := by
  unfold attach
  by_cases hroot : ds = ['/']
  · subst hroot
    exact (h.append part).trans (.slash [] part)
  · rw [if_neg (by simp [hds, hroot])]
    exact h.append part

/-- What comes behind the last slash. -/
theorem last_slash (hc : '/' ∈ cs) : ∃ ds part, cs = ds ++ '/' :: part ∧ '/' ∉ part := by
  obtain ⟨part, ds, hsplit, hpart⟩ := List.eq_append_cons_of_mem (List.mem_reverse.mpr hc)
  refine ⟨ds.reverse, part.reverse, ?_, by simpa using hpart⟩
  rw [← List.reverse_reverse cs, hsplit]
  simp

/-- Every path is a spelling of the shortest one with its components. -/
theorem respelled_spell (cs : List Char) : Respelled cs (spell (components (.ofList cs))) := by
  by_cases hc : '/' ∈ cs
  · obtain ⟨ds, part, rfl, hpart⟩ := last_slash hc
    rw [components_append, named_plain hpart]
    by_cases hds : ds = []
    · subst hds
      cases hn : isNamed part with
      | false => exact respelled_root hn
      | true => exact .refl _
    · have ih := respelled_spell ds
      rw [if_neg hds]
      cases hn : isNamed part with
      | false => simpa using (respelled_unnamed hds hn).trans ih
      | true =>
        rw [if_pos rfl, spell_append]
        refine respelled_attach ih ?_ part
        intro hnil
        have hsame := ih.components_eq
        rw [hnil] at hsame
        exact components_ne_nil hds hsame
  · rw [components_plain hc]
    by_cases hcs : cs = [] <;> simp only [hcs, if_true, if_false] <;> exact .refl _
termination_by cs.length

end Spelling

/-- Paths have the same components exactly if they are spellings of each other. -/
theorem components_eq_iff (path other : String) :
    components path = components other ↔ Respelled path.toList other.toList := by
  constructor
  · intro hsame
    have h := respelled_spell path.toList
    have h' := respelled_spell other.toList
    rw [String.ofList_toList] at h h'
    exact h.trans (hsame ▸ h'.symm)
  · intro h
    simpa using h.components_eq

end DebugAdapter.Path
