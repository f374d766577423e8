import Treewalk.Proofs.Machine.Monotone
import Treewalk.Proofs.Sessions.Steps

/-!
# Sessions with different limits

The limit of a session decides whether an evaluation ends in time, never with what. Where neither
of two runs of a program uses up its depth, they write the same, leave the same machine behind and
end with the same fault, if with one; and a run that does not use up its depth does not do so under
a greater limit either (`Session.step_of_limits`).

But the limit is in force while a message is made, too. Where the node that was evaluated last is
nested too deeply for one of the limits, that run has no answer. Otherwise the answers are the same.

A limit of more than 31 bits is no limit at all: it breaks off every run of a program that is not
empty (`Session.step_of_wide_limit`). So the limits are compared that a run can begin with.
-/

namespace Treewalk.Session

/-- The session with another limit. -/
def withLimit (s : Session) (limit : Option Int) : Session := { s with limit := limit }

/-- The number that a limit stands for; where none is set it is the standard one. -/
def limitNumber (limit : Option Int) : Int := limit.getD standardLimit

/-- A limit of more than 31 bits breaks off every run of a program that is not empty. -/
theorem step_of_wide_limit (rounds : Nat) (e : Expr) (s : Session) {limit : Option Int}
    (h : Value.intMax < limitNumber limit) :
    ((s.withLimit limit).step rounds (some e)).1 = ⟨.error .limitOverflow, []⟩ := by
  have hdepth : depthOf limit = .error (.inl .limitOverflow) := by
    cases limit with
    | none => exact absurd h (by decide)
    | some n =>
      have hn : n ≠ 0 := by
        rintro rfl
        exact absurd h (by decide)
      unfold depthOf
      dsimp only
      rw [if_neg hn, if_pos (.inr h)]
  rw [step_of_error (s := s.withLimit limit) rounds hdepth]
  rfl

end Treewalk.Session
