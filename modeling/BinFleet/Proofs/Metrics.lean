import BinFleet.Journal

namespace BinFleet.Metrics

variable {s t : Series}

theorem lookup_store_self (s : Series) (v : Int) (l : List (Series × Int)) :
    lookup s (store s v l) = some v := by
  induction l with
  | nil => simp [store, lookup]
  | cons p rest ih =>
    obtain ⟨k, w⟩ := p
    by_cases hk : k = s
    · simp [store, lookup, hk]
    · simp [store, lookup, hk, ih]

theorem lookup_store_of_ne (h : t ≠ s) (v : Int) (l : List (Series × Int)) :
    lookup t (store s v l) = lookup t l := by
  induction l with
  | nil => simp [store, lookup, h.symm]
  | cons p rest ih =>
    obtain ⟨k, w⟩ := p
    by_cases hk : k = s
    · subst hk
      simp [store, lookup, h.symm]
    · simp only [store, if_neg hk, lookup, ih]

@[simp] theorem get_set_self (m : Metrics) (s : Series) (v : Int) : (m.set s v).get s = v := by
  simp [get, set, lookup_store_self]

theorem get_set_of_ne (m : Metrics) (h : t ≠ s) (v : Int) : (m.set s v).get t = m.get t := by
  simp [get, set, lookup_store_of_ne h]

theorem get_inc_of_ne (m : Metrics) (h : t ≠ s) : (m.inc s).get t = m.get t :=
  get_set_of_ne m h _

theorem get_add (m : Metrics) (s t : Series) (d : Int) : (m.add s d).get t = m.get t + if t = s then d else 0 := by
  by_cases h : t = s
  · subst h
    rw [if_pos rfl]
    exact get_set_self m t _
  · rw [if_neg h, Int.add_zero]
    exact get_set_of_ne m h _

@[simp] theorem get_inc_self (m : Metrics) (s : Series) : (m.inc s).get s = m.get s + 1 :=
  get_set_self m s _

end BinFleet.Metrics
