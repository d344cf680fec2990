import BinFleet.Live.Hub
import BinFleet.Proofs.Live.Connection
import BinFleet.Proofs.Metrics
import Mathlib.Data.List.Nodup

namespace BinFleet.Live.Hub

variable {α : Type} {h : Hub α} {n k : Nat} {c : Connection α}

/-- Members are connections of the hub, each of them once. -/
structure Valid (h : Hub α) : Prop where
  nodup : h.members.Nodup
  bounded : ∀ n ∈ h.members, n < h.connections.length

section

variable (f : Connection α → Connection α × Option Fault)

theorem apply_of_getElem? (hc : h.connections[n]? = some c) :
    h.apply n f = (h.modify n fun _ => (f c).1, (f c).2) := by
  simp [apply, hc]

@[simp] theorem apply_members : (h.apply n f).1.members = h.members := by
  unfold apply
  cases h.connections[n]? <;> rfl

@[simp] theorem apply_length : (h.apply n f).1.connections.length = h.connections.length := by
  unfold apply
  cases h.connections[n]? <;> simp [modify]

theorem getElem?_apply_self (hc : h.connections[n]? = some c) :
    (h.apply n f).1.connections[n]? = some (f c).1 := by
  simp [apply_of_getElem? f hc, modify, hc]

theorem getElem?_apply_of_ne (hk : k ≠ n) : (h.apply n f).1.connections[k]? = h.connections[k]? := by
  unfold apply
  cases h.connections[n]? with
  | none => rfl
  | some c => simp [modify, hk.symm]

/-- An operation that leaves a connection as it is does so wherever it is applied. -/
theorem getElem?_apply_fixed (hc : h.connections[n]? = some c) (hf : (f c).1 = c) (k : Nat) :
    (h.apply k f).1.connections[n]? = some c := by
  by_cases hk : n = k
  · subst hk
    rw [getElem?_apply_self f hc, hf]
  · rw [getElem?_apply_of_ne f hk, hc]

theorem Valid.apply (hv : h.Valid) : (h.apply n f).1.Valid :=
  ⟨by simpa using hv.nodup, by simpa using hv.bounded⟩

end

section

variable (j : Journal)

@[simp] theorem drop_length : (h.drop n j).1.connections.length = h.connections.length := by
  simp [drop, modify]

theorem mem_members_drop (hk : k ≠ n) : k ∈ (h.drop n j).1.members ↔ k ∈ h.members := by
  simp [drop, hk]

theorem getElem?_drop_self (hc : h.connections[n]? = some c) :
    (h.drop n j).1.connections[n]? = some c.close := by
  simp [drop, modify, hc]

theorem getElem?_drop_of_ne (hk : k ≠ n) : (h.drop n j).1.connections[k]? = h.connections[k]? := by
  simp [drop, modify, hk.symm]

theorem Valid.drop (hv : h.Valid) : (h.drop n j).1.Valid := by
  refine ⟨hv.nodup.filter _, fun k hk => ?_⟩
  rw [drop_length]
  exact hv.bounded k (List.mem_of_mem_filter hk)

theorem Valid.connect (hv : h.Valid) (c : Connection α) : (h.connect c).1.Valid := by
  refine ⟨hv.nodup, fun k hk => ?_⟩
  have hlt := hv.bounded k hk
  simp only [Hub.connect, List.length_append]
  omega

theorem getElem?_connect_self (h : Hub α) (c : Connection α) :
    (h.connect c).1.connections[(h.connect c).2]? = some c := by
  simp [connect]

/-- The hub without the member that has the id of a newcomer. -/
def replaced (h : Hub α) (c : Connection α) : Hub α :=
  match h.member? c.id with
  | none => h
  | some old => { h.modify old Connection.close with members := h.members.filter (· != old) }

theorem add_hub (hc : h.connections[n]? = some c) :
    (h.add (some n) j).1 = { h.replaced c with members := (h.replaced c).members ++ [n] } := by
  unfold add replaced
  simp only [Option.bind_some, hc, Option.map_some]
  cases h.member? c.id <;> rfl

@[simp] theorem replaced_length : (h.replaced c).connections.length = h.connections.length := by
  unfold replaced
  cases h.member? c.id <;> simp [modify]

theorem mem_of_replaced (hk : k ∈ (h.replaced c).members) : k ∈ h.members := by
  unfold replaced at hk
  cases hm : h.member? c.id with
  | none => simpa [hm] using hk
  | some old =>
    simp only [hm] at hk
    exact List.mem_of_mem_filter hk

theorem Valid.replaced (hv : h.Valid) (c : Connection α) : (h.replaced c).Valid := by
  refine ⟨?_, fun k hk => by simpa using hv.bounded k (mem_of_replaced hk)⟩
  unfold Hub.replaced
  cases h.member? c.id with
  | none => exact hv.nodup
  | some old => exact hv.nodup.filter _

/-- Only members are closed to make room for a newcomer. -/
theorem getElem?_replaced (hn : n ∉ h.members) : (h.replaced c).connections[n]? = h.connections[n]? := by
  unfold replaced
  cases hm : h.member? c.id with
  | none => rfl
  | some old =>
    have hold : old ≠ n := fun he => hn (he ▸ List.mem_of_find?_eq_some hm)
    simp [modify, hold]

theorem getElem?_replaced_of_closed {c' : Connection α} (hc : h.connections[n]? = some c') (hclosed : c'.closed = true) :
    (h.replaced c).connections[n]? = some c' := by
  unfold replaced
  cases h.member? c.id with
  | none => exact hc
  | some old =>
    by_cases hold : old = n
    · simp [modify, hold, hc, Connection.close_of_closed hclosed]
    · simp [modify, hold, hc]

theorem Valid.add (hv : h.Valid) (hc : h.connections[n]? = some c) (hn : n ∉ h.members) :
    (h.add (some n) j).1.Valid := by
  have hr := hv.replaced c
  have hlt : n < h.connections.length := (List.getElem?_eq_some_iff.mp hc).1
  rw [add_hub j hc]
  refine ⟨List.nodup_append.mpr ⟨hr.nodup, List.nodup_singleton n, ?_⟩, fun k hk => ?_⟩
  · rintro a ha b hb rfl
    exact hn (List.mem_singleton.mp hb ▸ mem_of_replaced ha)
  · rcases List.mem_append.mp hk with hk | hk
    · exact hr.bounded k hk
    · simpa [List.mem_singleton.mp hk] using hlt

/-- A connection that was made just now is registered as it is. -/
theorem getElem?_add_connect (hv : h.Valid) (c : Connection α) :
    ((h.connect c).1.add (some (h.connect c).2) j).1.connections[(h.connect c).2]? = some c := by
  have hnew := h.getElem?_connect_self c
  have hm : (h.connect c).2 ∉ (h.connect c).1.members := fun hm => Nat.lt_irrefl _ (hv.bounded _ hm)
  rw [add_hub j hnew]
  exact (getElem?_replaced hm).trans hnew

end

section

variable [Sendable α] (m : α)

/-- Offering a message is sending it and, if that fails, dropping the member. -/
theorem offer_hub (j : Journal) (sent n : Nat) :
    (offer m (h, j, sent) n).1 =
      if (h.apply n (·.send m)).2.isSome then ((h.apply n (·.send m)).1.drop n j).1
      else (h.apply n (·.send m)).1 := by
  simp only [offer]
  rcases h.apply n (·.send m) with ⟨h', _ | f⟩ <;> rfl

@[simp] theorem offer_service (j : Journal) (sent n : Nat) :
    (offer m (h, j, sent) n).1.service = h.service := by
  have hs : (h.apply n (·.send m)).1.service = h.service := by
    unfold apply
    cases h.connections[n]? <;> rfl
  rw [offer_hub]
  split_ifs
  · exact hs
  · exact hs

theorem offer_metrics {s : Series} (hs : s ≠ .liveConnections h.service) (j : Journal) (sent n : Nat) :
    (offer m (h, j, sent) n).2.1.metrics.get s = j.metrics.get s := by
  have hservice := offer_service (h := h) m j sent n
  simp only [offer] at hservice ⊢
  generalize h.apply n (·.send m) = result at hservice ⊢
  obtain ⟨h', _ | f⟩ := result
  · rfl
  · have hs' : s ≠ .liveConnections h'.service := by
      change h'.service = h.service at hservice
      rwa [hservice]
    exact Metrics.get_set_of_ne _ hs' _

/-- A broadcast changes no metric but the number of connections. -/
theorem broadcast_metrics {s : Series} (hs : s ≠ .liveConnections h.service) (j : Journal) :
    (h.broadcast m j).2.1.metrics.get s = j.metrics.get s := by
  have hall (ns : List Nat) (h' : Hub α) (j' : Journal) (sent : Nat) (hs : s ≠ .liveConnections h'.service) :
      (ns.foldl (offer m) (h', j', sent)).2.1.metrics.get s = j'.metrics.get s := by
    induction ns generalizing h' j' sent with
    | nil => rfl
    | cons n rest ih =>
      rw [List.foldl_cons, ih _ _ _ (by rwa [offer_service])]
      exact offer_metrics m hs j' sent n
  exact hall h.members h j 0 hs

end

end BinFleet.Live.Hub
