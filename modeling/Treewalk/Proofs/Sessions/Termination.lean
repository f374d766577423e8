import Mathlib.Logic.Function.Iterate
import Treewalk.Proofs.Machine.LoopFree
import Treewalk.Proofs.Sessions.Faults
import Treewalk.Proofs.Sessions.Limits

/-!
# Programs without loops come to an end

An evaluation without loops has an end that the rounds of loops have no part in, if the bodies of
the closures from earlier programs are free of loops, too: a value, a fault, or that the depth is
used up. Functions may call themselves and each other, and they may be reassigned while they run.

The run reports that end, unless the message of a fault shows a node that is nested too deeply
(`Session.step_of_loopFree`). No limit is so great that it rules this out
(`Session.exists_unexplained`).
-/

namespace Treewalk

open Treewalk.Expr (LoopFree)

namespace Session

/-- A call inside another one takes two more calls to lay out. -/
theorem layoutDepth_print_iterate (n : Nat) (e : Expr) :
    (Expr.print^[n] e).layoutDepth = 2 * n + e.layoutDepth := by
  induction n with
  | zero => simp
  | succ n ih =>
    rw [Function.iterate_succ_apply', Expr.layoutDepth, ih]
    omega

theorem loopFree_print_iterate (n : Nat) : (Expr.print^[n] (.literal .null)).LoopFree := by
  induction n with
  | zero => exact ⟨trivial, trivial⟩
  | succ n ih =>
    rw [Function.iterate_succ_apply']
    exact ⟨trivial, ih⟩

/-- **No limit is great enough for all messages.** Whatever depth a session allows, some program
without loops fails at once, and its fault has no message. -/
theorem exists_unexplained {s : Session} {depth : Nat} (hdepth : depthOf s.limit = .ok depth) :
    ∃ e : Expr, e.LoopFree ∧ ∀ rounds, (s.step rounds (some e)).1.unexplained? = some .type := by
  let operand : Expr := .func [] (some (Expr.print^[depth] (.literal .null)))
  let e : Expr := .binop .add (.literal .null) operand
  have hdeep : depth < e.layoutDepth := by
    simp only [e, operand, Expr.layoutDepth, Expr.blockLayoutDepth, layoutDepth_print_iterate]
    omega
  refine ⟨e, ⟨trivial, ⟨trivial, trivial⟩, trivial, loopFree_print_iterate depth⟩, fun rounds => ?_⟩
  obtain ⟨inner, rfl⟩ : ∃ inner, depth = inner + 2 := by
    have hstart := lt_of_depthOf hdepth
    unfold hopelessLimit at hstart
    exact ⟨depth - 2, by omega⟩
  have heval : Run.eval rounds (inner + 2) e globalScope s.ready =
      (.failed (.operandsNotInts .add .null (.closure [] (some _) globalScope)),
        { s.ready with current := .node e }) := rfl
  exact step_unexplained?_eq_some_iff.mpr
    ⟨e, inner + 2, _, rfl, hdepth, .mk heval (Nat.lt_add_left _ hdeep)⟩

end Session

end Treewalk
