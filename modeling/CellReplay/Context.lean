/-!
# Context

A context binds a language to the program that interprets it.
-/

namespace CellReplay

structure Context where
  name : String
  path : String
  deriving DecidableEq, Repr

end CellReplay
