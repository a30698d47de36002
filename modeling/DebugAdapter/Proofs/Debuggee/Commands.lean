import DebugAdapter.Debuggee.Line
import DebugAdapter.Debuggee.Link
import DebugAdapter.Proofs.Frontend.Requests

namespace DebugAdapter.Debuggee

open Json

/-- Lines that are ended one by one are found again. -/
theorem splitOn_lines {lines : List Bytes} (hlines : ∀ line ∈ lines, lineFeed ∉ line) :
    (lines.flatMap fun line => line ++ [lineFeed]).splitOn lineFeed = lines ++ [[]] := by
  induction lines with
  | nil => rfl
  | cons line lines ih =>
    rw [List.forall_mem_cons] at hlines
    rw [List.flatMap_cons, List.append_assoc, List.singleton_append,
      List.splitOn_append_cons_self_of_not_mem hlines.1, ih hlines.2, List.cons_append]

structure Order where
  seq : Nat
  command : String
  arguments : Json

namespace Order

def toLine (o : Order) : Bytes :=
  (Command.make o.seq o.command o.arguments).toLine

/-- An order that survives being written. -/
structure Portable (o : Order) : Prop where
  seq : o.seq < 2 ^ 64
  arguments : o.arguments.Portable (maxDepth - 1)

/-- The request that the debuggee is to read; arguments that are null have become an object without
fields. -/
def request (o : Order) : Frontend.Request where
  seq := o.seq
  kind := "request"
  command := o.command
  arguments := match o.arguments with
    | .null => .record []
    | arguments => arguments

variable {o : Order}

theorem toLine_eq (o : Order) : o.toLine = o.request.print ++ [lineFeed] := rfl

theorem Portable.request (ho : o.Portable) : o.request.Portable := by
  refine ⟨ho.seq, ?_⟩
  obtain ⟨seq, command, arguments⟩ := o
  cases arguments with
  | null => exact .record .nil (by simp)
  | _ => exact ho.arguments

end Order

/-- Whatever stands in the commands, there is one line for each and nothing behind the last, and
each line is read as the request that it was made of. -/
theorem commands_kept_to_lines (orders : List Order) (hportable : ∀ o ∈ orders, o.Portable) :
    ∃ lines : List Bytes, (orders.flatMap Order.toLine).splitOn 0x0A = lines ++ [[]] ∧
      (∀ line ∈ lines, line ≠ []) ∧
      lines.map Frontend.Request.ofBytes? = orders.map fun o => .ok o.request := by
  refine ⟨orders.map fun o => o.request.print, ?_, ?_, ?_⟩
  · have hlines : ∀ line ∈ orders.map fun o => o.request.print, lineFeed ∉ line := by
      intro line hl
      obtain ⟨o, ho, rfl⟩ := List.mem_map.mp hl
      exact (Frontend.Request.print_legible (hportable o ho).request).not_mem (by decide)
    have hwire : orders.flatMap Order.toLine =
        (orders.map fun o => o.request.print).flatMap fun line => line ++ [lineFeed] := by
      rw [List.flatMap_map]
      exact List.flatMap_congr fun o _ => o.toLine_eq
    rw [hwire]
    exact splitOn_lines hlines
  · intro line hl
    obtain ⟨o, ho, rfl⟩ := List.mem_map.mp hl
    obtain ⟨text, hprint, _⟩ := Frontend.Request.readDraft_print (hportable o ho).request
    rw [hprint]
    exact List.cons_ne_nil _ _
  · rw [List.map_map]
    exact List.map_congr_left fun o ho => Frontend.Request.ofBytes_print (hportable o ho).request

/-- A command with line ends in its name and no arguments, and one with line ends in them. -/
theorem line_ends_kept_within_lines :
    let quit : Order := ⟨1, "quit\n\"now\"\r\\\u0001\u00e9", .null⟩
    let run : Order :=
      ⟨2 ^ 64 - 1, "", .record [("a\nb", .array [.string "\n\n", .int (-2 ^ 63)]), ("b", .null)]⟩
    ∃ first second, ([quit, run].flatMap Order.toLine).splitOn 0x0A = [first, second, []] ∧
      first ≠ [] ∧ second ≠ [] ∧
      Frontend.Request.ofBytes? first =
        .ok { seq := 1, command := quit.command, arguments := .record [] } ∧
      Frontend.Request.ofBytes? second =
        .ok { seq := run.seq, command := "", arguments := run.arguments } := by
  intro quit run
  have hquit : quit.Portable := ⟨by decide, .null⟩
  have hrun : run.Portable := by
    refine ⟨by decide, .record (by decide) ?_⟩
    rw [List.forall_mem_cons, List.forall_mem_singleton]
    refine ⟨.array ?_, .null⟩
    rw [List.forall_mem_cons, List.forall_mem_singleton]
    exact ⟨.string, .int (by decide) (by decide)⟩
  have hboth : ∀ o ∈ [quit, run], o.Portable := by
    rw [List.forall_mem_cons, List.forall_mem_singleton]
    exact ⟨hquit, hrun⟩
  obtain ⟨lines, hsplit, hfull, hread⟩ := commands_kept_to_lines [quit, run] hboth
  have hcount : lines.length = 2 := by simpa using congrArg List.length hread
  obtain ⟨first, second, rfl⟩ := List.length_eq_two.mp hcount
  rw [List.forall_mem_cons, List.forall_mem_singleton] at hfull
  simp only [List.map_cons, List.map_nil, List.cons.injEq, and_true] at hread
  exact ⟨first, second, hsplit, hfull.1, hfull.2, hread.1, hread.2⟩

end DebugAdapter.Debuggee
