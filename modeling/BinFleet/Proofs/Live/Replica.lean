import BinFleet.Live.Stream
import BinFleet.Proofs.Fleet.Change
import Mathlib.Logic.Function.Basic

namespace BinFleet

theorem Tracker.find?_markers {t : Tracker} (h : t.Valid) (id : String) :
    t.markers.find? (fun m => m.deviceId = id) = t.marker? id := by
  have hk := h.keyed
  unfold markers marker?
  generalize t.shown = shown at hk ⊢
  induction shown with
  | nil => rfl
  | cons p rest ih =>
    obtain ⟨k, m⟩ := p
    have hm : m.deviceId = k := hk _ List.mem_cons_self
    have hrest := ih fun q hq => hk q (List.mem_cons_of_mem _ hq)
    by_cases hid : k = id
    · simp [Tracker.find?, hm, hid]
    · simpa [Tracker.find?, hm, hid] using hrest

namespace Live

/-- The markers that a client shows, by device. -/
abbrev Replica := String → Option Marker

/-- Markers by their devices. -/
def Replica.ofMarkers (markers : List Marker) : Replica := fun id => markers.find? fun m => m.deviceId = id

/-- A snapshot replaces all; other frames put or remove one marker. -/
def Replica.absorb (r : Replica) : Frame → Replica
  | .snapshot markers _ => .ofMarkers markers
  | .changed m _ => Function.update r m.deviceId (some m)
  | .removed id _ => Function.update r id none

/-- What a client shows after the frames it got. -/
def Replica.replay (frames : List Frame) : Replica := frames.foldl absorb fun _ => none

/-- What a frame says about a device, if anything. -/
def Frame.tells (id : String) : Frame → Option (Option Marker)
  | snapshot markers _ => some (Replica.ofMarkers markers id)
  | changed m _ => if m.deviceId = id then some (some m) else none
  | removed k _ => if k = id then some none else none

/-- The last that frames say about a device. -/
def news (id : String) (frames : List Frame) : Option (Option Marker) :=
  (frames.filterMap (Frame.tells id)).getLast?

theorem news_append (id : String) (fs gs : List Frame) : news id (fs ++ gs) = (news id gs).or (news id fs) := by
  simp [news, List.filterMap_append, List.getLast?_append]

theorem news_singleton (id : String) (f : Frame) : news id [f] = f.tells id := by
  cases h : f.tells id <;> simp [news, h]

theorem Replica.absorb_apply (r : Replica) (f : Frame) (id : String) :
    r.absorb f id = (f.tells id).getD (r id) := by
  cases f with
  | snapshot markers time => rfl
  | changed m time =>
    by_cases h : m.deviceId = id
    · simp [absorb, Frame.tells, h]
    · simp [absorb, Frame.tells, h, Ne.symm h]
  | removed k time =>
    by_cases h : k = id
    · simp [absorb, Frame.tells, h]
    · simp [absorb, Frame.tells, h, Ne.symm h]

theorem Replica.foldl_absorb_apply (frames : List Frame) (r : Replica) (id : String) :
    frames.foldl absorb r id = (news id frames).getD (r id) := by
  induction frames generalizing r with
  | nil => rfl
  | cons f rest ih =>
    rw [List.foldl_cons, ih, absorb_apply, ← List.singleton_append, news_append, news_singleton]
    cases news id rest <;> rfl

/-- All that frames say in the end is so on the map. -/
def Truthful (frames : List Frame) (t : Tracker) : Prop :=
  ∀ id told, news id frames = some told → told = t.marker? id

namespace Truthful

variable {frames : List Frame} {t t' : Tracker}

theorem nil (t : Tracker) : Truthful [] t := by
  intro id told h
  simp [news] at h

theorem append {fs gs : List Frame} (hf : Truthful fs t) (hg : Truthful gs t) : Truthful (fs ++ gs) t := by
  intro id told h
  rw [news_append, Option.or_eq_some_iff] at h
  rcases h with h | ⟨-, h⟩
  · exact hg id told h
  · exact hf id told h

theorem snapshot (h : t.Valid) (time : Time.Instant) : Truthful [.snapshot t.markers time] t := by
  intro id told ht
  rw [news_singleton, Frame.tells, Option.some.injEq] at ht
  rw [← ht, Replica.ofMarkers, Tracker.find?_markers h]

/-- A client that got a snapshot and then all that is true shows the map. -/
theorem replay (h : Truthful frames t) (hv : t.Valid) {markers : List Marker} {time : Time.Instant}
    (hs : frames.head? = some (.snapshot markers time)) :
    Replica.replay frames = Replica.ofMarkers t.markers := by
  funext id
  obtain ⟨rest, rfl⟩ : ∃ rest, frames = .snapshot markers time :: rest := by
    cases frames with
    | nil => simp at hs
    | cons f rest => exact ⟨rest, by simpa using hs⟩
  have hsome : (news id (.snapshot markers time :: rest)).isSome := by
    rw [← List.singleton_append, news_append, news_singleton]
    simp [Frame.tells]
  obtain ⟨told, htold⟩ := Option.isSome_iff_exists.mp hsome
  rw [Replica.replay, Replica.foldl_absorb_apply, Replica.ofMarkers, Tracker.find?_markers hv, ← h id told htold, htold]
  rfl

end Truthful

/-- The frame that tells a client about a change. -/
def Frame.ofNotice (now : Time.Instant) : Fleet.Notice → Frame
  | .updated u => .changed u.marker u.timestamp
  | .removed id => .removed id now

theorem Frame.tells_ofNotice (now : Time.Instant) (n : Fleet.Notice) (id : String) :
    (Frame.ofNotice now n).tells id = if n.deviceId = id then some n.marker? else none := by
  cases n <;> rfl

/-- A change is what its frame says, and all else on the map stays. -/
theorem Truthful.change {c : Fleet.Settings} {n : Fleet.Notice} {t t' : Tracker} {frames : List Frame}
    (hc : Fleet.Changed c t t' (.ok n)) (h : Truthful frames t) (now : Time.Instant) :
    Truthful (frames ++ [.ofNotice now n]) t' := by
  intro id told ht
  rw [news_append, news_singleton, Frame.tells_ofNotice] at ht
  by_cases hid : id = n.deviceId
  · rw [hid, hc.marker?_self]
    simpa [hid, eq_comm] using ht
  · rw [hc.marker?_of_ne hid]
    exact h id told (by simpa [Ne.symm hid] using ht)

end Live

end BinFleet
