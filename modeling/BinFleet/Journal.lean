import BinFleet.Log.Entry
import BinFleet.Metrics

namespace BinFleet

/-- Log entries, oldest first, metrics, and the folder that the documentation was first opened in. -/
structure Journal where
  entries : List LogEntry := []
  metrics : Metrics := {}
  documentation : Option String := none
  deriving Inhabited

namespace Journal

def log (j : Journal) (e : LogEntry) : Journal := { j with entries := j.entries ++ [e] }

def measure (j : Journal) (f : Metrics → Metrics) : Journal := { j with metrics := f j.metrics }

def count (j : Journal) (s : Series) : Journal := j.measure fun m => m.inc s

/-- Remembers the folder of the documentation, unless there is one already. -/
def openDocumentation (j : Journal) (folder : String) : Journal :=
  { j with documentation := j.documentation <|> some folder }

/-- With its entries taken out. -/
def emptied (j : Journal) : Journal := { j with entries := [] }

end Journal

end BinFleet
