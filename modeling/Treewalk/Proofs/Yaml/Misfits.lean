import Mathlib.Algebra.Group.Int.Defs
import Mathlib.Algebra.Group.Nat.Defs
import Treewalk.Format.Read
import Treewalk.Proofs.Outcome
import Treewalk.Proofs.Text.CodePoint
import Treewalk.Proofs.Yaml.NodeFaults

/-!
# Scalars that misfit their tags

Data are made of a scalar by its tag. A text that is not of the form that the tag asks for is a
fault. Most of these faults are reported (`YamlFault.IsReported`); the others come of texts that
`Tag.Misfits` lists, and of no other ones (`scalarValue_made`).

A tag that is told by the text of a plain scalar fits it. Only a number in base 60 may still have so
many parts that the weight of the first is too great (`eq_longReal_of_isUntagged`).
-/

namespace Treewalk

open Number Text Yaml

namespace Yaml

/-- A text that is tagged as floating point number without its sign, in small letters. -/
def unsignedReal (t : Text) : Text := (Text.lower (dropUnderscores t)).takeSign.2

/-- A text without the line feed at its end. -/
def withoutLineFeed (t : Text) : Text :=
  if t.getLast? = some (.char '\n') then t.dropLast else t

/-- Whether a text misfits the tag of a scalar in a way that is not checked for, and the fault that
comes of it. -/
inductive Tag.Misfits : Tag → Text → YamlFault → Prop where
  /-- No truth value. -/
  | bool {t} : switchValue? (Text.lower t) = none → Misfits .bool t (.unknownSwitch (Text.lower t))
  /-- No characters but underscores and a sign. -/
  | int {t} : (dropUnderscores t).takeSign.2 = [] → Misfits .int t .emptyNumber
  /-- No characters but underscores. -/
  | float {t} : dropUnderscores t = [] → Misfits .float t .emptyNumber
  /-- A number in base 60 with a part whose weight is no floating point number. -/
  | sixtieths {t k} : k < (splitColons (unsignedReal t)).length →
    (Binary64.ofInt (60 ^ k)).isInfinite = true → Misfits .float t .longReal
  /-- No date and no moment. -/
  | timestamp {t} : (withoutLineFeed t).toChars?.bind timestampParts? = none →
    Misfits .timestamp t .notATimestamp

end Yaml

end Treewalk
