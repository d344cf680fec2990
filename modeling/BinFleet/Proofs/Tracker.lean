import BinFleet.Tracker
import Mathlib.Data.String.Basic

namespace BinFleet

/-- What the map has of a device. -/
structure Track where
  marker : Marker
  history : List Reading

namespace Tracker

section

variable {α : Type} {id k : String} {a : α}

theorem find?_insert_self (id : String) (a : α) (l : List (String × α)) :
    find? id (insert id a l) = some a := by
  induction l with
  | nil => simp [insert, find?]
  | cons p rest ih =>
    obtain ⟨k, b⟩ := p
    unfold insert
    split_ifs with hlt heq
    · simp [find?]
    · simp [find?]
    · simp [find?, Ne.symm heq, ih]

theorem find?_insert_of_ne (h : k ≠ id) (a : α) (l : List (String × α)) :
    find? k (insert id a l) = find? k l := by
  induction l with
  | nil => simp [insert, find?, h.symm]
  | cons p rest ih =>
    obtain ⟨j, t⟩ := p
    unfold insert
    split_ifs with hlt heq
    · simp [find?, h.symm]
    · subst heq
      simp [find?, h.symm]
    · simp only [find?, ih]

theorem find?_drop_self (id : String) (l : List (String × α)) : find? id (drop id l) = none := by
  unfold drop
  induction l with
  | nil => rfl
  | cons p rest ih =>
    obtain ⟨k, b⟩ := p
    by_cases hk : k = id
    · simpa [hk] using ih
    · simpa [hk, find?] using ih

theorem find?_drop_of_ne (h : k ≠ id) (l : List (String × α)) : find? k (drop id l) = find? k l := by
  unfold drop
  induction l with
  | nil => rfl
  | cons p rest ih =>
    obtain ⟨j, t⟩ := p
    by_cases hj : j = id
    · subst hj
      simpa [find?, h.symm] using ih
    · by_cases hk : j = k
      · simp [find?, hk, h]
      · simpa [hj, hk, find?] using ih

theorem mem_insert {p : String × α} {l : List (String × α)} (h : p ∈ insert id a l) : p = (id, a) ∨ p ∈ l := by
  induction l with
  | nil => simpa [insert] using h
  | cons q rest ih =>
    obtain ⟨j, t⟩ := q
    unfold insert at h
    split_ifs at h with hlt heq
    · simpa using h
    · rcases List.mem_cons.mp h with h | h
      · exact .inl h
      · exact .inr (List.mem_cons_of_mem _ h)
    · rcases List.mem_cons.mp h with h | h
      · exact .inr (by simp [h])
      · exact (ih h).imp_right (List.mem_cons_of_mem _)

theorem insert_sorted {l : List (String × α)} (h : l.Pairwise fun a b => a.1 < b.1) :
    (insert id a l).Pairwise fun a b => a.1 < b.1 := by
  induction l with
  | nil => simp [insert]
  | cons p rest ih =>
    obtain ⟨k, t⟩ := p
    obtain ⟨hk, hrest⟩ := List.pairwise_cons.mp h
    unfold insert
    split_ifs with hlt heq
    · refine List.pairwise_cons.mpr ⟨fun q hq => ?_, h⟩
      rcases List.mem_cons.mp hq with rfl | hq
      · exact hlt
      · exact hlt.trans (hk q hq)
    · subst heq
      exact List.pairwise_cons.mpr ⟨hk, hrest⟩
    · refine List.pairwise_cons.mpr ⟨fun q hq => ?_, ih hrest⟩
      rcases mem_insert hq with rfl | hq
      · exact lt_of_le_of_ne (not_lt.mp hlt) (Ne.symm heq)
      · exact hk q hq

theorem find?_eq_some {l : List (String × α)} (h : l.Pairwise fun a b => a.1 < b.1) :
    find? id l = some a ↔ (id, a) ∈ l := by
  induction l with
  | nil => simp [find?]
  | cons p rest ih =>
    obtain ⟨k, b⟩ := p
    obtain ⟨hk, hrest⟩ := List.pairwise_cons.mp h
    by_cases hid : k = id
    · subst hid
      have hnot : (k, a) ∉ rest := fun hm => lt_irrefl k (hk _ hm)
      simp [find?, hnot, eq_comm]
    · simp [find?, hid, Ne.symm hid, ih hrest]

theorem isSome_find? (id : String) (l : List (String × α)) : (find? id l).isSome ↔ id ∈ keys l := by
  induction l with
  | nil => simp [find?, keys]
  | cons p rest ih =>
    obtain ⟨k, b⟩ := p
    by_cases hk : k = id
    · simp [find?, keys, hk]
    · simpa [find?, keys, hk, Ne.symm hk] using ih

theorem drop_eq_self {l : List (String × α)} (h : id ∉ keys l) : drop id l = l := by
  refine List.filter_eq_self.mpr fun p hp => ?_
  have hne : p.1 ≠ id := fun he => h (he ▸ List.mem_map_of_mem hp)
  simpa using hne

end

section

variable (t : Tracker) (id : String)

/-- A device is visible exactly if it has sent something. -/
theorem isSome_marker? : (t.marker? id).isSome ↔ (t.history? id).isSome := by
  rw [marker?, history?, isSome_find?, isSome_find?, t.agree]

/-- What the map has of a device, from both of its parts. -/
def get? : Option Track :=
  match t.marker? id, t.history? id with
  | some marker, some history => some ⟨marker, history⟩
  | _, _ => none

theorem map_marker_get? : (t.get? id).map (·.marker) = t.marker? id := by
  have h := t.isSome_marker? id
  unfold get?
  cases hm : t.marker? id <;> cases hh : t.history? id <;> simp_all

theorem map_history_get? : (t.get? id).map (·.history) = t.history? id := by
  have h := t.isSome_marker? id
  unfold get?
  cases hm : t.marker? id <;> cases hh : t.history? id <;> simp_all

end

/-- Each device once, in ascending order of the ids, and its marker under its own id. -/
structure Valid (t : Tracker) : Prop where
  sorted : t.shown.Pairwise fun a b => a.1 < b.1
  keyed : ∀ p ∈ t.shown, p.2.deviceId = p.1

theorem empty_valid : empty.Valid := ⟨.nil, by simp [empty]⟩

section

variable {id : String} (t : Tracker) (r : Reading) (m : Marker)

theorem apply_marker : (t.apply r m).marker =
    { m with deviceId := r.id, readings := (((t.history? r.id).getD []).length + 1 : Nat) } := by
  simp [apply]

theorem apply_replaced : (t.apply r m).replaced = (t.marker? r.id).isSome := rfl

theorem marker?_apply_self : (t.apply r m).tracker.marker? r.id = some (t.apply r m).marker :=
  find?_insert_self _ _ _

theorem history?_apply_self : (t.apply r m).tracker.history? r.id = some ((t.history? r.id).getD [] ++ [r]) :=
  find?_insert_self _ _ _

theorem marker?_apply_of_ne (h : id ≠ r.id) : (t.apply r m).tracker.marker? id = t.marker? id :=
  find?_insert_of_ne h _ _

theorem history?_apply_of_ne (h : id ≠ r.id) : (t.apply r m).tracker.history? id = t.history? id :=
  find?_insert_of_ne h _ _

theorem get?_apply_self : (t.apply r m).tracker.get? r.id =
    some ⟨(t.apply r m).marker, (t.history? r.id).getD [] ++ [r]⟩ := by
  rw [get?, marker?_apply_self, history?_apply_self]

theorem get?_apply_of_ne (h : id ≠ r.id) : (t.apply r m).tracker.get? id = t.get? id := by
  rw [get?, marker?_apply_of_ne t r m h, history?_apply_of_ne t r m h, get?]

theorem apply_valid (h : t.Valid) : (t.apply r m).tracker.Valid := by
  refine ⟨insert_sorted h.sorted, fun p hp => ?_⟩
  rcases mem_insert hp with rfl | hp
  · rfl
  · exact h.keyed p hp

end

section

variable {id k : String} (t : Tracker)

theorem marker?_forget_self (id : String) : (t.forget id).1.marker? id = none := find?_drop_self _ _

theorem marker?_forget_of_ne (h : k ≠ id) : (t.forget id).1.marker? k = t.marker? k := find?_drop_of_ne h _

theorem history?_forget_of_ne (h : k ≠ id) : (t.forget id).1.history? k = t.history? k := find?_drop_of_ne h _

theorem get?_forget_self (id : String) : (t.forget id).1.get? id = none := by
  rw [get?, marker?_forget_self]

theorem get?_forget_of_ne (h : k ≠ id) : (t.forget id).1.get? k = t.get? k := by
  rw [get?, marker?_forget_of_ne t h, history?_forget_of_ne t h, get?]

/-- A device that is not on the map is dropped without effect: it has no history either. -/
theorem forget_of_absent (h : t.marker? id = none) : (t.forget id).1 = t := by
  have hshown : id ∉ keys t.shown := fun hmem => by
    have hsome := (isSome_find? id t.shown).mpr hmem
    rw [← marker?, h] at hsome
    cases hsome
  have hsent : id ∉ keys t.sent := t.agree ▸ hshown
  simp only [forget, drop_eq_self hshown, drop_eq_self hsent]

theorem forget_valid (id : String) (h : t.Valid) : (t.forget id).1.Valid :=
  ⟨h.sorted.filter _, fun p hp => h.keyed p (List.mem_of_mem_filter hp)⟩

end

section

variable {id : String} {t : Tracker}

/-- The list of markers holds exactly the visible ones. -/
theorem mem_markers (h : t.Valid) {m : Marker} : m ∈ t.markers ↔ t.marker? m.deviceId = some m := by
  rw [marker?, find?_eq_some h.sorted, markers, List.mem_map]
  constructor
  · rintro ⟨⟨k, m⟩, hp, rfl⟩
    have hk : m.deviceId = k := h.keyed _ hp
    exact hk ▸ hp
  · intro hm
    exact ⟨_, hm, rfl⟩

/-- A visible marker names the device it is found under. -/
theorem marker?_deviceId (h : t.Valid) {m : Marker} (hm : t.marker? id = some m) : m.deviceId = id :=
  h.keyed _ ((find?_eq_some h.sorted).mp hm)

theorem mem_deviceIds (h : t.Valid) : id ∈ t.markers.map (·.deviceId) ↔ (t.marker? id).isSome := by
  simp only [List.mem_map, mem_markers h, Option.isSome_iff_exists]
  constructor
  · rintro ⟨m, hm, rfl⟩
    exact ⟨m, hm⟩
  · rintro ⟨m, hm⟩
    have hid := marker?_deviceId h hm
    exact ⟨m, hid ▸ hm, hid⟩

theorem markers_sorted (h : t.Valid) : (t.markers.map (·.deviceId)).Pairwise (· < ·) := by
  simp only [markers, List.map_map, List.pairwise_map]
  refine h.sorted.imp_of_mem fun {a b} ha hb hab => ?_
  change a.2.deviceId < b.2.deviceId
  rw [h.keyed a ha, h.keyed b hb]
  exact hab

theorem markers_length (t : Tracker) : t.markers.length = t.size := by
  simp [markers, size]

end

end Tracker

end BinFleet
