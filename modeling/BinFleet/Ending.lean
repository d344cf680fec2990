namespace BinFleet

/-- Work returns a value, or crashes with a text before it gets there. -/
inductive Ending (α : Type) where
  | returned (value : α)
  | crashed (text : String)
  deriving DecidableEq, Repr

end BinFleet
