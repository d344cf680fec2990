import BinFleet.Live.Stream
import BinFleet.Proofs.Live.Hub

namespace BinFleet.Live

namespace Connection

variable {α : Type}

/-- What may happen to a connection: it stays the same one over the same socket, and closed once it
is closed. -/
structure Tame (f : Connection α → Connection α) : Prop where
  id : ∀ c, (f c).id = c.id
  attached : ∀ c, (f c).attached = c.attached
  closed : ∀ c, c.closed = true → (f c).closed = true

theorem tame_hold : Tame (hold (α := α)) := ⟨fun _ => rfl, fun _ => rfl, fun _ h => h⟩

/-- A socket breaks. -/
theorem tame_break (why : String) : Tame fun c : Connection α => { c with broken := some why } :=
  ⟨fun _ => rfl, fun _ => rfl, fun _ h => h⟩

theorem tame_close : Tame (close (α := α)) where
  id c := by unfold close; split_ifs <;> rfl
  attached c := by unfold close; split_ifs <;> rfl
  closed c _ := c.close_closed

variable [Sendable α]

/-- Sending changes nothing but what waits and what was written. -/
theorem send_eq (c : Connection α) (m : α) :
    ∃ backlog written, (c.send m).1 = { c with backlog, written } := by
  unfold send
  split
  · exact ⟨c.backlog, c.written, rfl⟩
  · split_ifs
    · exact ⟨c.backlog ++ [m], c.written, rfl⟩
    · exact ⟨c.backlog, c.written, rfl⟩
    · unfold write
      split
      · exact ⟨c.backlog, c.written, rfl⟩
      · split
        · exact ⟨c.backlog, _, rfl⟩
        · exact ⟨c.backlog, _, rfl⟩

theorem tame_send (m : α) : Tame fun c : Connection α => (c.send m).1 where
  id c := by obtain ⟨backlog, written, h⟩ := c.send_eq m; rw [h]
  attached c := by obtain ⟨backlog, written, h⟩ := c.send_eq m; rw [h]
  closed c hc := by obtain ⟨backlog, written, h⟩ := c.send_eq m; rw [h]; exact hc

/-- No sending fails because a connection is not there. -/
theorem send_ne_notFound (c : Connection α) (m : α) : (c.send m).2 ≠ some (.known .connectionNotFound) := by
  have hfault (why : Fault) : some (sendFault why) ≠ some (.known .connectionNotFound) := by
    simp [sendFault]
  unfold send
  split
  · exact hfault _
  · split_ifs
    · simp
    · exact hfault _
    · unfold write
      split
      · exact hfault _
      · split
        · simp
        · exact hfault _

/-- A connection that was offered a message: it is closed if it did not take it. -/
def offered (m : α) (c : Connection α) : Connection α :=
  if (c.send m).2.isSome then (c.send m).1.close else (c.send m).1

end Connection

namespace Hub

variable {α : Type} {h h' h'' : Hub α} {j : Journal} {n : Nat} {c : Connection α}

/-- What comes of a hub: its connections are still there, and whoever left it is closed. -/
structure Succeeds (h' h : Hub α) : Prop where
  connection : ∀ {n : Nat} {c : Connection α}, h.connections[n]? = some c →
    ∃ c', h'.connections[n]? = some c' ∧ c'.id = c.id ∧ c'.attached = c.attached ∧ (c.closed = true → c'.closed = true)
  left : ∀ {n : Nat}, n ∈ h.members → n ∉ h'.members → ∃ c, h'.connections[n]? = some c ∧ c.closed = true

namespace Succeeds

theorem refl (h : Hub α) : Succeeds h h :=
  ⟨fun hc => ⟨_, hc, rfl, rfl, fun hclosed => hclosed⟩, fun hn hn' => absurd hn hn'⟩

/-- One that left at first is still closed, also if it came back in between. -/
theorem trans (h₂ : Succeeds h'' h') (h₁ : Succeeds h' h) : Succeeds h'' h := by
  constructor
  · intro n c hc
    obtain ⟨c', hc', hid, hattached, hclosed⟩ := h₁.connection hc
    obtain ⟨c'', hc'', hid', hattached', hclosed'⟩ := h₂.connection hc'
    exact ⟨c'', hc'', hid'.trans hid, hattached'.trans hattached, fun ho => hclosed' (hclosed ho)⟩
  · intro n hn hn''
    by_cases hn' : n ∈ h'.members
    · exact h₂.left hn' hn''
    · obtain ⟨c, hc, hclosed⟩ := h₁.left hn hn'
      obtain ⟨c', hc', -, -, hclosed'⟩ := h₂.connection hc
      exact ⟨c', hc', hclosed' hclosed⟩

/-- Nobody leaves when something happens to one connection. -/
theorem modify {f : Connection α → Connection α} (hf : Connection.Tame f) (h : Hub α) (n : Nat) :
    Succeeds (h.modify n f) h := by
  refine ⟨fun {k c} hc => ?_, fun hk hk' => absurd hk hk'⟩
  by_cases hk : n = k
  · subst hk
    exact ⟨f c, by simp [Hub.modify, hc], hf.id c, hf.attached c, hf.closed c⟩
  · exact ⟨c, by simp [Hub.modify, hk, hc], rfl, rfl, fun hclosed => hclosed⟩

end Succeeds

theorem Valid.connection (hv : h.Valid) (hn : n ∈ h.members) : ∃ c, h.connections[n]? = some c :=
  ⟨_, List.getElem?_eq_getElem (hv.bounded n hn)⟩

/-- A hub without one of its members, which is closed. -/
def without (h : Hub α) (n : Nat) : Hub α :=
  { h.modify n Connection.close with members := h.members.filter (· != n) }

theorem drop_hub (h : Hub α) (n : Nat) (j : Journal) : (h.drop n j).1 = h.without n := rfl

theorem replaced_eq (h : Hub α) (c : Connection α) : h.replaced c = ((h.member? c.id).map h.without).getD h := by
  unfold replaced
  cases h.member? c.id <;> rfl

theorem Succeeds.without (hv : h.Valid) (n : Nat) : Succeeds (h.without n) h := by
  have hmodify := Succeeds.modify Connection.tame_close h n
  refine ⟨hmodify.connection, fun {k} hk hk' => ?_⟩
  have hkn : k = n := by
    by_contra hne
    exact hk' (List.mem_filter.mpr ⟨hk, by simpa using hne⟩)
  obtain ⟨c, hc⟩ := hv.connection hk
  exact ⟨c.close, by simp [Hub.without, Hub.modify, ← hkn, hc], c.close_closed⟩

/-- Members are told apart by their ids and have sockets. -/
structure Orderly (h : Hub α) : Prop where
  valid : h.Valid
  distinct : ∀ {n k : Nat} {c d : Connection α}, n ∈ h.members → k ∈ h.members →
    h.connections[n]? = some c → h.connections[k]? = some d → c.id = d.id → n = k
  attached : ∀ {n : Nat} {c : Connection α}, n ∈ h.members → h.connections[n]? = some c → c.attached = true

namespace Orderly

/-- Order is kept as long as nobody joins. -/
theorem of_succeeds (ho : h.Orderly) (hs : Succeeds h' h) (hnodup : h'.members.Nodup)
    (hsub : ∀ n ∈ h'.members, n ∈ h.members) : h'.Orderly := by
  have hsame {n : Nat} {c' : Connection α} (hn : n ∈ h'.members) (hc' : h'.connections[n]? = some c') :
      ∃ c, h.connections[n]? = some c ∧ c'.id = c.id ∧ c'.attached = c.attached := by
    obtain ⟨c, hc⟩ := ho.valid.connection (hsub n hn)
    obtain ⟨d, hd, hid, hattached, -⟩ := hs.connection hc
    cases hc'.symm.trans hd
    exact ⟨c, hc, hid, hattached⟩
  constructor
  · refine ⟨hnodup, fun n hn => ?_⟩
    obtain ⟨c, hc⟩ := ho.valid.connection (hsub n hn)
    obtain ⟨c', hc', -⟩ := hs.connection hc
    exact (List.getElem?_eq_some_iff.mp hc').1
  · intro n k c d hn hk hc hd hid
    obtain ⟨c₀, hc₀, hcid, -⟩ := hsame hn hc
    obtain ⟨d₀, hd₀, hdid, -⟩ := hsame hk hd
    exact ho.distinct (hsub n hn) (hsub k hk) hc₀ hd₀ (hcid.symm.trans (hid.trans hdid))
  · intro n c hn hc
    obtain ⟨c₀, hc₀, -, hattached⟩ := hsame hn hc
    exact hattached.trans (ho.attached (hsub n hn) hc₀)

theorem without (ho : h.Orderly) (n : Nat) : (h.without n).Orderly :=
  ho.of_succeeds (.without ho.valid n) (ho.valid.nodup.filter _) fun _ hk => List.mem_of_mem_filter hk

theorem modify {f : Connection α → Connection α} (ho : h.Orderly) (hf : Connection.Tame f) (n : Nat) :
    (h.modify n f).Orderly :=
  ho.of_succeeds (.modify hf h n) ho.valid.nodup fun _ hk => hk

/-- A member is found under its id, and nobody else is. -/
theorem member?_eq_some (ho : h.Orderly) {id : Uuid} :
    h.member? id = some n ↔ n ∈ h.members ∧ ∃ c, h.connections[n]? = some c ∧ c.id = id := by
  have hmatch (k : Nat) : (h.connections[k]?).any (fun c => c.id == id) = true ↔
      ∃ c, h.connections[k]? = some c ∧ c.id = id := by
    cases h.connections[k]? <;> simp
  have hfound {k : Nat} (hm : h.member? id = some k) : ∃ c, h.connections[k]? = some c ∧ c.id = id := by
    unfold member? at hm
    have hany := List.find?_some hm
    exact (hmatch k).mp hany
  constructor
  · intro hm
    exact ⟨List.mem_of_find?_eq_some hm, hfound hm⟩
  · rintro ⟨hn, c, hc, hid⟩
    cases hm : h.member? id with
    | none => exact absurd ((hmatch n).mpr ⟨c, hc, hid⟩) (List.find?_eq_none.mp hm n hn)
    | some k =>
      obtain ⟨d, hd, hdid⟩ := hfound hm
      have hk : k = n := ho.distinct (List.mem_of_find?_eq_some hm) hn hd hc (hdid.trans hid.symm)
      rw [hk]

end Orderly

/-- Somebody is a member under this id. -/
def Registers (h : Hub α) (id : Uuid) : Prop := ∃ n ∈ h.members, ∃ c, h.connections[n]? = some c ∧ c.id = id

theorem Orderly.member?_eq_none (ho : h.Orderly) {id : Uuid} : h.member? id = none ↔ ¬ h.Registers id := by
  rw [Option.eq_none_iff_forall_ne_some]
  constructor
  · rintro hnone ⟨n, hn, hc⟩
    exact hnone n (ho.member?_eq_some.mpr ⟨hn, hc⟩)
  · intro hstranger n hm
    obtain ⟨hn, hc⟩ := ho.member?_eq_some.mp hm
    exact hstranger ⟨n, hn, hc⟩

/-- The number that the metrics show, once they show one. -/
def shown? (h : Hub α) (j : Journal) : Option Int := Metrics.lookup (.liveConnections h.service) j.metrics.values

theorem shown?_gauge (h : Hub α) (j : Journal) : h.shown? (h.gauge j) = some (h.size : Int) :=
  Metrics.lookup_store_self _ _ _

/-- Whoever is a member is found under its id, and the metrics show how many members there are. -/
structure Sound (h : Hub α) (j : Journal) : Prop where
  orderly : h.Orderly
  gauge : h.shown? j = some (h.size : Int) ∨ h.shown? j = none ∧ h.members = []

namespace Sound

theorem fresh (service : String) (hj : (({ service } : Hub α)).shown? j = none) :
    Sound ({ service } : Hub α) j where
  orderly := ⟨⟨List.nodup_nil, by simp⟩, by simp, by simp⟩
  gauge := .inr ⟨hj, rfl⟩

theorem modify {f : Connection α → Connection α} (hs : h.Sound j) (hf : Connection.Tame f) (n : Nat) :
    (h.modify n f).Sound j :=
  ⟨hs.orderly.modify hf n, hs.gauge⟩

theorem drop (hs : h.Sound j) (n : Nat) : (h.drop n j).1.Sound (h.drop n j).2 :=
  ⟨hs.orderly.without n, .inl (shown?_gauge _ j)⟩

theorem log (hs : h.Sound j) (e : LogEntry) : h.Sound (j.log e) := ⟨hs.orderly, hs.gauge⟩

end Sound

section

variable (j : Journal)

theorem Succeeds.replaced (hv : h.Valid) (c : Connection α) : Succeeds (h.replaced c) h := by
  rw [replaced_eq]
  cases h.member? c.id with
  | none => exact .refl h
  | some old => exact .without hv old

theorem Succeeds.add (hv : h.Valid) (hc : h.connections[n]? = some c) : Succeeds (h.add (some n) j).1 h := by
  have hr := Succeeds.replaced hv c
  rw [add_hub j hc]
  exact ⟨hr.connection, fun hk hk' => hr.left hk fun hk'' => hk' (List.mem_append_left _ hk'')⟩

/-- Those who stay when somebody joins have other ids. -/
theorem Orderly.id_ne_of_replaced (ho : h.Orderly) {k : Nat} {d : Connection α} (hk : k ∈ (h.replaced c).members)
    (hd : h.connections[k]? = some d) : d.id ≠ c.id := by
  intro hid
  have hm := ho.member?_eq_some.mpr ⟨mem_of_replaced hk, d, hd, hid⟩
  rw [replaced_eq, hm] at hk
  simp [Hub.without] at hk

theorem Orderly.add (ho : h.Orderly) (hc : h.connections[n]? = some c) (hn : n ∉ h.members)
    (ha : c.attached = true) : (h.add (some n) j).1.Orderly := by
  have hr : (h.replaced c).Orderly := by
    refine ho.of_succeeds (.replaced ho.valid c) (ho.valid.replaced c).nodup fun k hk => mem_of_replaced hk
  have hnew : (h.add (some n) j).1.connections[n]? = some c := by
    rw [add_hub j hc]
    exact (getElem?_replaced hn).trans hc
  have hother {k : Nat} {d : Connection α} (hk : k ∈ (h.replaced c).members)
      (hd : (h.add (some n) j).1.connections[k]? = some d) : d.id ≠ c.id := by
    obtain ⟨e, he⟩ := ho.valid.connection (mem_of_replaced hk)
    obtain ⟨d', hd', hid, -⟩ := (Succeeds.add j ho.valid hc).connection he
    cases hd.symm.trans hd'
    rw [hid]
    exact ho.id_ne_of_replaced hk he
  have hmem (k : Nat) : k ∈ (h.add (some n) j).1.members ↔ k ∈ (h.replaced c).members ∨ k = n := by
    simp [add_hub j hc]
  have hsame (k : Nat) : (h.add (some n) j).1.connections[k]? = (h.replaced c).connections[k]? := by
    rw [add_hub j hc]
  refine ⟨ho.valid.add j hc hn, fun {k l d e} hk hl hd he hid => ?_, fun {k d} hk hd => ?_⟩
  · rcases (hmem k).mp hk with hk' | rfl <;> rcases (hmem l).mp hl with hl' | rfl
    · exact hr.distinct hk' hl' ((hsame k).symm.trans hd) ((hsame l).symm.trans he) hid
    · cases he.symm.trans hnew
      exact absurd hid (hother hk' hd)
    · cases hd.symm.trans hnew
      exact absurd hid.symm (hother hl' he)
    · rfl
  · rcases (hmem k).mp hk with hk | rfl
    · exact hr.attached hk ((hsame k).symm.trans hd)
    · cases hd.symm.trans hnew
      exact ha

theorem add_journal (hc : h.connections[n]? = some c) : ∃ j', (h.add (some n) j).2.1 = (h.add (some n) j).1.gauge j' := by
  unfold add
  simp only [Option.bind_some, hc, Option.map_some]
  cases h.member? c.id <;> exact ⟨_, rfl⟩

theorem Sound.add (hs : h.Sound j) (hc : h.connections[n]? = some c) (hn : n ∉ h.members)
    (ha : c.attached = true) : (h.add (some n) j).1.Sound (h.add (some n) j).2.1 := by
  refine ⟨hs.orderly.add j hc hn ha, .inl ?_⟩
  obtain ⟨j', hj'⟩ := add_journal j hc
  rw [hj']
  exact shown?_gauge _ j'

end

/-- Only one with the same id makes room for a newcomer. -/
theorem Orderly.id_of_replaced (ho : h.Orderly) {k : Nat} (hk : k ∈ h.members) (hk' : k ∉ (h.replaced c).members) :
    ∃ d, h.connections[k]? = some d ∧ d.id = c.id := by
  rw [replaced_eq] at hk'
  cases hm : h.member? c.id with
  | none => simp [hm, hk] at hk'
  | some old =>
    have hold : k = old := by
      by_contra hne
      exact hk' (by simpa [hm, Hub.without, hk] using hne)
    exact hold ▸ (ho.member?_eq_some.mp hm).2

section

variable (j : Journal) (id : Uuid)

theorem delete_of_member (hm : h.member? id = some n) : h.delete id j = ((h.drop n j).1, (h.drop n j).2, none) := by
  simp [delete, hm]

theorem delete_of_stranger (hm : h.member? id = none) :
    h.delete id j = (h, j, some (.known .connectionNotFound)) := by
  simp [delete, hm]

theorem Sound.delete (hs : h.Sound j) : (h.delete id j).1.Sound (h.delete id j).2.1 := by
  cases hm : h.member? id with
  | none => rwa [delete_of_stranger j id hm]
  | some n =>
    rw [delete_of_member j id hm]
    exact hs.drop n

theorem Succeeds.delete (hv : h.Valid) : Succeeds (h.delete id j).1 h := by
  cases hm : h.member? id with
  | none =>
    rw [delete_of_stranger j id hm]
    exact .refl h
  | some n =>
    rw [delete_of_member j id hm]
    exact .without hv n

theorem Orderly.delete_registers (ho : h.Orderly) : ¬ (h.delete id j).1.Registers id := by
  cases hm : h.member? id with
  | none =>
    rw [delete_of_stranger j id hm]
    exact ho.member?_eq_none.mp hm
  | some n =>
    rw [delete_of_member j id hm]
    rintro ⟨k, hk, d, hd, hid⟩
    have hkn : k ≠ n := by simpa using (List.mem_filter.mp hk).2
    rw [getElem?_drop_of_ne j hkn] at hd
    have hmk := ho.member?_eq_some.mpr ⟨List.mem_of_mem_filter hk, d, hd, hid⟩
    exact hkn (Option.some.inj (hmk.symm.trans hm))

/-- Dropping some members, one after the other. -/
theorem drops_spec (ns : List Nat) (hs : h.Sound j) :
    let result := ns.foldl (fun (h, j) n => h.drop n j) (h, j)
    result.1.Sound result.2 ∧ Succeeds result.1 h ∧ result.1.members = h.members.filter (· ∉ ns) := by
  induction ns generalizing h j with
  | nil => exact ⟨hs, .refl h, by simp⟩
  | cons n rest ih =>
    obtain ⟨hsound, hsucceeds, hmembers⟩ := ih (h.drop n j).2 (hs.drop n)
    refine ⟨hsound, hsucceeds.trans (.without hs.orderly.valid n), hmembers.trans ?_⟩
    rw [drop_hub, Hub.without, List.filter_filter]
    refine List.filter_congr fun k _ => ?_
    by_cases hk : k = n <;> simp [hk]

theorem close_spec (hs : h.Sound j) :
    (h.close j).1.Sound (h.close j).2 ∧ Succeeds (h.close j).1 h ∧ (h.close j).1.members = [] := by
  obtain ⟨hsound, hsucceeds, hmembers⟩ := drops_spec j h.members hs
  refine ⟨hsound.log _, hsucceeds, hmembers.trans ?_⟩
  simp

end

/-- Only what a function does to the item in that place counts. -/
theorem modify_congr {f g : Connection α → Connection α} {cs : List (Connection α)} (hc : cs[n]? = some c)
    (hfg : f c = g c) : cs.modify n f = cs.modify n g := by
  refine List.ext_getElem? fun k => ?_
  by_cases hk : n = k
  · subst hk
    simp [hc, hfg]
  · simp [hk]

theorem apply_hub (f : Connection α → Connection α × Option Fault) (h : Hub α) (n : Nat) :
    (h.apply n f).1 = h.modify n fun c => (f c).1 := by
  unfold apply modify
  cases hc : h.connections[n]? with
  | none =>
    have hlen := List.getElem?_eq_none_iff.mp hc
    rw [List.modify_eq_self hlen]
  | some c => simp only [modify_congr (f := fun _ => (f c).1) (g := fun c => (f c).1) hc rfl]

variable [Sendable α] (m : α)

theorem sendTo_hub (id : Uuid) (h : Hub α) :
    (h.sendTo id m).1 = ((h.member? id).map fun n => h.modify n fun c => (c.send m).1).getD h := by
  unfold sendTo
  cases h.member? id with
  | none => rfl
  | some n => exact apply_hub _ h n

theorem sendTo_of_stranger {id : Uuid} (hm : h.member? id = none) :
    h.sendTo id m = (h, some (.known .connectionNotFound)) := by
  simp [sendTo, hm]

theorem sendTo_of_member {id : Uuid} (hm : h.member? id = some n) (hc : h.connections[n]? = some c) :
    (h.sendTo id m).2 = (c.send m).2 := by
  simp [sendTo, hm, apply_of_getElem? _ hc]

theorem Sound.sendTo (hs : h.Sound j) (id : Uuid) : (h.sendTo id m).1.Sound j := by
  rw [sendTo_hub]
  cases h.member? id with
  | none => exact hs
  | some n => exact hs.modify (Connection.tame_send m) n

theorem Succeeds.sendTo (h : Hub α) (id : Uuid) : Succeeds (h.sendTo id m).1 h := by
  rw [sendTo_hub]
  cases h.member? id with
  | none => exact .refl h
  | some n => exact .modify (Connection.tame_send m) h n

/-- A connection takes a message. -/
def takes (h : Hub α) (m : α) (n : Nat) : Bool := (h.connections[n]?).any fun c => (c.send m).2.isNone

/-- What is left of a hub after one of its members was offered a message. -/
theorem offer_spec (hs : h.Sound j) (hc : h.connections[n]? = some c) (sent : Nat) :
    let result := offer m (h, j, sent) n
    result.1.Sound result.2.1 ∧ Succeeds result.1 h ∧
      result.1.connections = h.connections.modify n (Connection.offered m) ∧
      result.1.members = (if h.takes m n then h.members else h.members.filter (· != n)) ∧
      result.2.2 = sent + if h.takes m n then 1 else 0 := by
  have hsent := hs.modify (Connection.tame_send m) n
  have hafter := Succeeds.modify (Connection.tame_send m) h n
  have happly := apply_of_getElem? (·.send m) hc
  have hhub := apply_hub (·.send m) h n
  rw [happly] at hhub
  simp only [offer, happly, takes, hc, Option.any_some]
  rw [← hhub] at hsent hafter
  cases hf : (c.send m).2 with
  | none =>
    refine ⟨hsent, hafter, modify_congr hc ?_, rfl, rfl⟩
    simp [Connection.offered, hf]
  | some why =>
    refine ⟨(hsent.log _).drop n, (Succeeds.without hsent.orderly.valid n).trans hafter, ?_, rfl, rfl⟩
    refine (List.modify_modify_eq ..).trans (modify_congr hc ?_)
    simp [Connection.offered, hf]

/-- Offering a message to some members, one after the other. -/
theorem offers_spec {ns : List Nat} (hns : ns.Nodup) (hs : h.Sound j) (hbound : ∀ n ∈ ns, n < h.connections.length)
    (sent : Nat) :
    let result := ns.foldl (offer m) (h, j, sent)
    result.1.Sound result.2.1 ∧ Succeeds result.1 h ∧
      (∀ n, result.1.connections[n]? =
        if n ∈ ns then (h.connections[n]?).map (Connection.offered m) else h.connections[n]?) ∧
      result.1.members = h.members.filter (fun n => n ∉ ns ∨ h.takes m n) ∧
      result.2.2 = sent + ns.countP (h.takes m) := by
  induction ns generalizing h j sent with
  | nil => exact ⟨hs, .refl h, by simp, by simp, by simp⟩
  | cons n rest ih =>
    obtain ⟨hn, hrest⟩ := List.nodup_cons.mp hns
    have hc := List.getElem?_eq_getElem (hbound n List.mem_cons_self)
    obtain ⟨hsound, hsucceeds, hconn, hmembers, hsent⟩ := offer_spec m hs hc sent
    rw [List.foldl_cons]
    generalize offer m (h, j, sent) n = told at *
    obtain ⟨h', j', sent'⟩ := told
    simp only at hsound hsucceeds hconn hmembers hsent
    have hsame {k : Nat} (hk : k ≠ n) : h'.connections[k]? = h.connections[k]? := by
      simp [hconn, hk.symm]
    have htakes {k : Nat} (hk : k ≠ n) : h'.takes m k = h.takes m k := by
      simp [takes, hsame hk]
    obtain ⟨hsound', hsucceeds', hconn', hmembers', hsent'⟩ := ih hrest hsound
      (fun k hk => by simpa [hconn] using hbound k (List.mem_cons_of_mem _ hk)) sent'
    refine ⟨hsound', hsucceeds'.trans hsucceeds, fun k => ?_, hmembers'.trans ?_, hsent'.trans ?_⟩
    · rw [hconn']
      by_cases hk : k = n
      · subst hk
        simp [hn, hconn]
      · simp [hk, hsame hk]
    · rw [hmembers]
      cases htake : h.takes m n with
      | true =>
        refine List.filter_congr fun k _ => ?_
        by_cases hk : k = n
        · simp [hk, hn, htake]
        · simp [hk, htakes hk]
      | false =>
        rw [if_neg Bool.false_ne_true, List.filter_filter]
        refine List.filter_congr fun k _ => ?_
        by_cases hk : k = n
        · simp [hk, htake]
        · simp [hk, htakes hk]
    · have hcount : rest.countP (h'.takes m) = rest.countP (h.takes m) :=
        List.countP_congr fun k hk => by rw [htakes (ne_of_mem_of_not_mem hk hn)]
      rw [hsent, hcount, List.countP_cons]
      omega

/-- A broadcast offers the message once to each member and keeps those who take it. -/
theorem broadcast_spec (hs : h.Sound j) :
    (h.broadcast m j).1.Sound (h.broadcast m j).2.1 ∧ Succeeds (h.broadcast m j).1 h ∧
      (∀ n, (h.broadcast m j).1.connections[n]? =
        if n ∈ h.members then (h.connections[n]?).map (Connection.offered m) else h.connections[n]?) ∧
      (h.broadcast m j).1.members = h.members.filter (h.takes m) ∧
      (h.broadcast m j).2.2 = (h.broadcast m j).1.size := by
  obtain ⟨hsound, hsucceeds, hconn, hmembers, hsent⟩ :=
    offers_spec m hs.orderly.valid.nodup hs hs.orderly.valid.bounded 0
  have hkept : h.members.filter (fun n => n ∉ h.members ∨ h.takes m n) = h.members.filter (h.takes m) :=
    List.filter_congr fun n hn => by simp [hn]
  have hleft : (h.broadcast m j).1.members = h.members.filter (h.takes m) := hmembers.trans hkept
  refine ⟨hsound, hsucceeds, hconn, hleft, hsent.trans ?_⟩
  rw [size, hleft, List.countP_eq_length_filter, Nat.zero_add]

end Hub

/-- What can happen next to a hub and its journal. Members are told and closed in any order. -/
inductive Hub.Step {α : Type} [Sendable α] (h : Hub α) (j : Journal) : Hub α → Journal → Prop where
  | connect (c : Connection α) : Step h j (h.connect c).1 j
  | happen (n : Nat) {f : Connection α → Connection α} (hf : Connection.Tame f) : Step h j (h.modify n f) j
  | shuffle {order : List Nat} (ho : order.Perm h.members) : Step h j { h with members := order } j
  | add {n : Nat} {c : Connection α} (hc : h.connections[n]? = some c) (ha : c.attached = true) (hn : n ∉ h.members) :
      Step h j (h.add (some n) j).1 (h.add (some n) j).2.1
  | delete (id : Uuid) : Step h j (h.delete id j).1 (h.delete id j).2.1
  | sendTo (id : Uuid) (m : α) : Step h j (h.sendTo id m).1 j
  | broadcast (m : α) : Step h j (h.broadcast m j).1 (h.broadcast m j).2.1
  | close : Step h j (h.close j).1 (h.close j).2

/-- Whatever happens in any number of steps. -/
inductive Hub.Run {α : Type} [Sendable α] (h : Hub α) (j : Journal) : Hub α → Journal → Prop where
  | refl : Run h j h j
  | tail {h' h'' : Hub α} {j' j'' : Journal} (hrun : Run h j h' j') (hstep : Hub.Step h' j' h'' j'') : Run h j h'' j''

namespace Hub

variable {α : Type} [Sendable α] {h h' : Hub α} {j j' : Journal}

theorem Step.sound (hs : h.Sound j) (hstep : Step h j h' j') : h'.Sound j' ∧ Succeeds h' h := by
  cases hstep with
  | connect c =>
    have hsucceeds : Succeeds (h.connect c).1 h := by
      refine ⟨fun {n d} hd => ⟨d, ?_, rfl, rfl, fun hclosed => hclosed⟩, fun hn hn' => absurd hn hn'⟩
      exact (List.getElem?_append_left (List.getElem?_eq_some_iff.mp hd).1).trans hd
    exact ⟨⟨hs.orderly.of_succeeds hsucceeds hs.orderly.valid.nodup fun _ hn => hn, hs.gauge⟩, hsucceeds⟩
  | happen n hf => exact ⟨hs.modify hf n, .modify hf h n⟩
  | @shuffle order ho =>
    have hsucceeds : Succeeds { h with members := order } h :=
      ⟨(Succeeds.refl h).connection, fun hn hn' => absurd (ho.mem_iff.mpr hn) hn'⟩
    have horderly := hs.orderly.of_succeeds hsucceeds (ho.nodup_iff.mpr hs.orderly.valid.nodup)
      fun n hn => ho.mem_iff.mp hn
    refine ⟨⟨horderly, ?_⟩, hsucceeds⟩
    rcases hs.gauge with hshown | ⟨hshown, hempty⟩
    · exact .inl (hshown.trans (by simp only [size, ho.length_eq]))
    · exact .inr ⟨hshown, (hempty ▸ ho).eq_nil⟩
  | add hc ha hn => exact ⟨hs.add j hc hn ha, .add j hs.orderly.valid hc⟩
  | delete id => exact ⟨hs.delete j id, .delete j id hs.orderly.valid⟩
  | sendTo id m => exact ⟨hs.sendTo m id, .sendTo m h id⟩
  | broadcast m =>
    obtain ⟨hsound, hsucceeds, -⟩ := broadcast_spec m hs
    exact ⟨hsound, hsucceeds⟩
  | close =>
    obtain ⟨hsound, hsucceeds, -⟩ := close_spec j hs
    exact ⟨hsound, hsucceeds⟩

theorem Run.sound (hs : h.Sound j) (hrun : Run h j h' j') : h'.Sound j' ∧ Succeeds h' h := by
  induction hrun with
  | refl => exact ⟨hs, .refl h⟩
  | tail _ hstep ih =>
    obtain ⟨hsound, hsucceeds⟩ := hstep.sound ih.1
    exact ⟨hsound, hsucceeds.trans ih.2⟩

/-- All that a hub promises at any time. -/
structure Consistent (h : Hub α) (j : Journal) : Prop where
  /-- Every member is found under its own id, so there is one for each id at most. -/
  indexed : ∀ n ∈ h.members, ∃ c, h.connections[n]? = some c ∧ c.attached = true ∧ h.member? c.id = some n
  /-- The metrics show the number of members as soon as they show one. -/
  counted : h.shown? j = some (h.size : Int) ∨ h.shown? j = none ∧ h.members = []
  /-- Whoever leaves is closed, and stays so. -/
  leavers : ∀ {h' : Hub α} {j' : Journal}, Run h j h' j' → ∀ n ∈ h.members, n ∉ h'.members →
    ∃ c, h'.connections[n]? = some c ∧ c.closed = true
  /-- A newcomer is found under its id, and only one with the same id makes room for it. -/
  joining : ∀ {n : Nat} {c : Connection α}, h.connections[n]? = some c → c.attached = true → n ∉ h.members →
    (h.add (some n) j).2.2 = none ∧ (h.add (some n) j).1.member? c.id = some n ∧
      ∀ k ∈ h.members, k ∉ (h.add (some n) j).1.members → ∃ d, h.connections[k]? = some d ∧ d.id = c.id
  /-- A broadcast offers its message once to each member and to nobody else, -/
  offering : ∀ (m : α) (n : Nat), (h.broadcast m j).1.connections[n]? =
    if n ∈ h.members then (h.connections[n]?).map (Connection.offered m) else h.connections[n]?
  /-- keeps those who took it, -/
  keeping : ∀ m : α, (h.broadcast m j).1.members = h.members.filter (h.takes m)
  /-- and tells how many there are. -/
  telling : ∀ m : α, (h.broadcast m j).2.2 = (h.broadcast m j).1.size
  /-- An id that nobody has is refused, and no other. -/
  refusing : ∀ id : Uuid, ((h.delete id j).2.2 = some (.known .connectionNotFound) ↔ ¬ h.Registers id) ∧
    ∀ m : α, (h.sendTo id m).2 = some (.known .connectionNotFound) ↔ ¬ h.Registers id
  /-- A refusal changes nothing. -/
  refused : ∀ id : Uuid, ¬ h.Registers id →
    (h.delete id j).1 = h ∧ (h.delete id j).2.1 = j ∧ ∀ m : α, (h.sendTo id m).1 = h
  /-- A member that is deleted is gone. -/
  deleting : ∀ id : Uuid, ¬ (h.delete id j).1.Registers id
  closing : (h.close j).1.members = []

theorem Sound.consistent (hs : h.Sound j) : h.Consistent j where
  indexed n hn := by
    obtain ⟨c, hc⟩ := hs.orderly.valid.connection hn
    exact ⟨c, hc, hs.orderly.attached hn hc, hs.orderly.member?_eq_some.mpr ⟨hn, c, hc, rfl⟩⟩
  counted := hs.gauge
  leavers hrun n hn hn' := (hrun.sound hs).2.left hn hn'
  joining {n c} hc ha hn := by
    have hhub := add_hub j hc
    have hnew : (h.add (some n) j).1.connections[n]? = some c := by
      rw [hhub]
      exact (getElem?_replaced hn).trans hc
    refine ⟨?_, ?_, fun k hk hk' => hs.orderly.id_of_replaced hk fun hk'' => hk' ?_⟩
    · simp [Hub.add, hc]
    · exact (hs.orderly.add j hc hn ha).member?_eq_some.mpr ⟨by simp [hhub], c, hnew, rfl⟩
    · rw [hhub]
      exact List.mem_append_left _ hk''
  offering m := (broadcast_spec m hs).2.2.1
  keeping m := (broadcast_spec m hs).2.2.2.1
  telling m := (broadcast_spec m hs).2.2.2.2
  refusing id := by
    rw [← hs.orderly.member?_eq_none]
    cases hm : h.member? id with
    | none => simp [delete_of_stranger j id hm, sendTo_of_stranger _ hm]
    | some n =>
      obtain ⟨-, c, hc, -⟩ := hs.orderly.member?_eq_some.mp hm
      refine ⟨by simp [delete_of_member j id hm], fun m => ?_⟩
      rw [sendTo_of_member m hm hc]
      simpa using c.send_ne_notFound m
  refused id hid := by
    have hm := hs.orderly.member?_eq_none.mpr hid
    simp [delete_of_stranger j id hm, sendTo_of_stranger _ hm]
  deleting id := hs.orderly.delete_registers j id
  closing := (close_spec j hs).2.2

/-- A hub that starts empty, before anything was counted, keeps its promises after any run. -/
theorem hub_consistent_over_runs {service : String} {j₀ : Journal}
    (hj₀ : Metrics.lookup (.liveConnections service) j₀.metrics.values = none)
    (hrun : Run ({ service } : Hub α) j₀ h j) : h.Consistent j :=
  (hrun.sound (.fresh service hj₀)).1.consistent

/-- Two join, one of them is held and the other breaks, and a broadcast keeps the one that is held. -/
theorem hub_consistent_after_broken_broadcast : ∃ (h : Hub Frame) (j : Journal), Run { service := "map" } {} h j ∧
    h.members = [0] ∧ h.shown? j = some 1 ∧ (h.connections[1]?).map (·.closed) = some true ∧ h.Consistent j := by
  have hstart : Run ({ service := "map" } : Hub Frame) {} { service := "map" } {} := .refl
  have hfirst := (hstart.tail (.connect { id := .zero })).tail (.add (n := 0) rfl rfl (by decide))
  have hsecond := (hfirst.tail (.connect { id := .ofLeading [1] })).tail (.add (n := 1) rfl rfl (by decide))
  have hheld := hsecond.tail (.happen 0 Connection.tame_hold)
  have hbroken := hheld.tail (.happen 1 (Connection.tame_break "broken pipe"))
  have hrun := hbroken.tail (.broadcast (.removed "a" .zero))
  exact ⟨_, _, hrun, rfl, rfl, rfl, hub_consistent_over_runs rfl hrun⟩

end Hub

end BinFleet.Live
