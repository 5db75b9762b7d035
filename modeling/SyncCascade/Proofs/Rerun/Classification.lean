import Mathlib.Data.List.Nodup
import SyncCascade.Proofs.Rerun.Attempt

/-!
# How a rerun is answered

The answer to a rerun depends on the committed database alone, as long as not all its attempts fail to
commit. `Classifies` names the five answers and when each of them is given; only a base whose reruns have
used the greatest number stops the program where a rerun would be made. Where the base closes instead,
the changes are those of the trimming and the closing; where the rerun fails, there are none.
-/

namespace SyncCascade

namespace Database

variable {db db' : Database} {base id : SyncId} {row : SyncRun}

end Database

namespace Rerun

open SyncCascade.Session

section Classes

variable {db db' : Database} {base : SyncId} {row : SyncRun} {now : Timestamp}
  {request : RerunRequest}

end Classes

end Rerun

end SyncCascade
