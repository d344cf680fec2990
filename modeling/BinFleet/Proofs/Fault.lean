import BinFleet.Fault

namespace BinFleet.Fault

@[simp] theorem has_known (c d : Cause) : (known c).has d = decide (d = c) := by
  simp [has, causes]

@[simp] theorem has_other (text : String) (c : Cause) : (other text).has c = false := rfl

@[simp] theorem has_tagged (context : LogContext) (f : Fault) (c : Cause) :
    (tagged context f).has c = f.has c := rfl

@[simp] theorem has_wrapped (before after : String) (f : Fault) (c : Cause) :
    (wrapped before f after).has c = f.has c := rfl

@[simp] theorem has_paired (before between after : String) (f g : Fault) (c : Cause) :
    (paired before f between g after).has c = (f.has c || g.has c) := by
  simp [has, causes]

@[simp] theorem has_during (operation : String) (f : Fault) (c : Cause) :
    (f.during operation).has c = f.has c := rfl

/-- A fault can be found in another one, under the layers around it. -/
inductive Wraps : Fault → Fault → Prop where
  | refl {f : Fault} : Wraps f f
  | tagged {context : LogContext} {inner f : Fault} (h : Wraps inner f) : Wraps (tagged context inner) f
  | wrapped {before after : String} {inner f : Fault} (h : Wraps inner f) : Wraps (wrapped before inner after) f
  | first {before between after : String} {g g' f : Fault} (h : Wraps g f) :
    Wraps (paired before g between g' after) f
  | second {before between after : String} {g g' f : Fault} (h : Wraps g' f) :
    Wraps (paired before g between g' after) f

end BinFleet.Fault
