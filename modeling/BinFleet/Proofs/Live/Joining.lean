import BinFleet.Proofs.Live.Hub
import BinFleet.Proofs.Live.Replica
import Mathlib.Logic.Relation

namespace BinFleet.Live

/-- How far the operation on the map has come. -/
inductive Phase where
  | idle
  /-- The map has changed, and nobody was told. -/
  | changed (f : Frame)
  /-- The members still to be told. -/
  | telling (f : Frame) (rest : List Nat)
  /-- A member that did not take the frame is about to be dropped. -/
  | dropping (f : Frame) (n : Nat) (rest : List Nat)

namespace Phase

def frame? : Phase → Option Frame
  | idle => none
  | changed f | telling f _ | dropping f _ _ => some f

def rest : Phase → List Nat
  | idle | changed _ => []
  | telling _ rest | dropping _ _ rest => rest

def condemned? : Phase → Option Nat
  | dropping _ n _ => some n
  | _ => none

/-- What a member is still to be told. -/
def pending (n : Nat) : Phase → List Frame
  | idle => []
  | changed f => [f]
  | telling f rest | dropping f _ rest => if n ∈ rest then [f] else []

end Phase

/-- How far a joining client has come; after it is connected, with the number of its connection. -/
inductive Client where
  | away
  | held (n : Nat)
  | registered (n : Nat)
  | briefed (n : Nat) (markers : List Marker) (time : Time.Instant)
  | live (n : Nat) (markers : List Marker) (time : Time.Instant)
  | refused (n : Nat)

def Client.number? : Client → Option Nat
  | away => none
  | held n | registered n | briefed n _ _ | live n _ _ | refused n => some n

/-- A client joins while the map changes: its steps fall anywhere between those of a change. -/
structure Scene where
  tracker : Tracker
  hub : Hub Frame
  phase : Phase := .idle
  client : Client := .away

/-- What can happen next. Members are told in any order, and what others do leaves the connection of
the client alone. -/
inductive Step (c : Fleet.Settings) (s : Scene) : Scene → Prop where
  | change {t : Tracker} {n : Fleet.Notice} (now : Time.Instant) (hp : s.phase = .idle)
      (hc : Fleet.Changed c s.tracker t (.ok n)) (he : Encodable (Frame.ofNotice now n)) :
      Step c s { s with tracker := t, phase := .changed (.ofNotice now n) }
  | begin {f : Frame} {order : List Nat} (hp : s.phase = .changed f) (ho : order.Perm s.hub.members) :
      Step c s { s with phase := .telling f order }
  | tell {f : Frame} {n : Nat} {rest : List Nat} (hp : s.phase = .telling f (n :: rest))
      (hs : (s.hub.apply n (·.send f)).2 = none) :
      Step c s { s with hub := (s.hub.apply n (·.send f)).1, phase := .telling f rest }
  | fail {f : Frame} {n : Nat} {rest : List Nat} {why : Fault} (hp : s.phase = .telling f (n :: rest))
      (hs : (s.hub.apply n (·.send f)).2 = some why) :
      Step c s { s with hub := (s.hub.apply n (·.send f)).1, phase := .dropping f n rest }
  | drop {f : Frame} {n : Nat} {rest : List Nat} (j : Journal) (hp : s.phase = .dropping f n rest) :
      Step c s { s with hub := (s.hub.drop n j).1, phase := .telling f rest }
  | finish {f : Frame} (hp : s.phase = .telling f []) : Step c s { s with phase := .idle }
  | connect (id : Uuid) (hc : s.client = .away) :
      Step c s { s with
        hub := (s.hub.connect (Connection.hold { id })).1
        client := .held (s.hub.connect (Connection.hold { id })).2 }
  | register {n : Nat} (j : Journal) (hc : s.client = .held n) :
      Step c s { s with hub := (s.hub.add (some n) j).1, client := .registered n }
  | brief {n : Nat} (now : Time.Instant) (hc : s.client = .registered n)
      (he : Encodable (Frame.snapshot s.tracker.markers now)) :
      Step c s { s with client := .briefed n s.tracker.markers now }
  | sendFirst {n : Nat} {markers : List Marker} {time : Time.Instant} (hc : s.client = .briefed n markers time)
      (hs : (s.hub.apply n (·.sendFirst (.snapshot markers time))).2 = none) :
      Step c s { s with
        hub := (s.hub.apply n (·.sendFirst (.snapshot markers time))).1
        client := .live n markers time }
  | refuse {n : Nat} {markers : List Marker} {time : Time.Instant} {why : Fault}
      (hc : s.client = .briefed n markers time)
      (hs : (s.hub.apply n (·.sendFirst (.snapshot markers time))).2 = some why) :
      Step c s { s with
        hub := (s.hub.apply n (·.sendFirst (.snapshot markers time))).1
        client := .refused n }
  | leave (n : Nat) (j : Journal) : Step c s { s with hub := (s.hub.drop n j).1 }
  | elsewhere {hub : Hub Frame} (hv : hub.Valid) (hl : s.hub.connections.length ≤ hub.connections.length)
      (hn : ∀ n, s.client.number? = some n →
        hub.connections[n]? = s.hub.connections[n]? ∧ (n ∈ hub.members ↔ n ∈ s.hub.members)) :
      Step c s { s with hub }

/-- What does not depend on the client: the map and the hub are in order, and a change under way is
told as it was made. -/
structure Scene.Grounded (s : Scene) : Prop where
  tracker : s.tracker.Valid
  hub : s.hub.Valid
  frame : ∀ f, s.phase.frame? = some f → Encodable f ∧ Truthful [f] s.tracker
  nodup : s.phase.rest.Nodup
  bounded : ∀ n ∈ s.phase.rest, n < s.hub.connections.length

/-- The connection of a client: what it took over, and that this with the rest to come is true. -/
structure Scene.Serves (s : Scene) (n : Nat) (c : Connection Frame) (sent : List Frame) : Prop where
  connection : s.hub.connections[n]? = some c
  carries : c.Carries sent
  current : c.closed = false → s.phase.condemned? ≠ some n →
    n ∈ s.hub.members ∧ Truthful (sent ++ c.backlog ++ s.phase.pending n) s.tracker

/-- How much a client took over at each point. -/
def Client.Fits : Client → Connection Frame → List Frame → Prop
  | away, _, _ | held _, _, _ => False
  | registered _, c, sent => c.held = true ∧ sent = []
  | briefed _ markers time, c, sent =>
    c.held = true ∧ sent = [.snapshot markers time] ∧ Encodable (Frame.snapshot markers time)
  | live _ markers time, c, sent => c.held = false ∧ sent.head? = some (.snapshot markers time)
  | refused _, c, _ => c.held = true ∧ c.closed = true

inductive Scene.Hosts (s : Scene) : Client → Prop where
  | away : Hosts s .away
  | held {n : Nat} {c : Connection Frame} (hc : s.hub.connections[n]? = some c) (hs : c.Carries [])
      (hh : c.held = true) (hb : c.backlog = []) (hm : n ∉ s.hub.members) (hr : n ∉ s.phase.rest) : Hosts s (.held n)
  | joined {client : Client} {n : Nat} {c : Connection Frame} {sent : List Frame} (hn : client.number? = some n)
      (hs : s.Serves n c sent) (hf : client.Fits c sent) : Hosts s client

namespace Scene

variable {s s' : Scene} {n : Nat} {c : Connection Frame} {sent : List Frame} {client : Client}

theorem Grounded.pending (h : s.Grounded) (n : Nat) : Truthful (s.phase.pending n) s.tracker := by
  have hf := h.frame
  cases hp : s.phase with
  | idle => exact .nil _
  | changed f => exact (hf f (by rw [hp]; rfl)).2
  | telling f rest | dropping f k rest =>
    simp only [Phase.pending]
    split_ifs
    · exact (hf f (by rw [hp]; rfl)).2
    · exact .nil _

/-- Nothing is unsettled by a step that leaves the map and the frame under way. -/
theorem Grounded.mono (h : s.Grounded) (ht : s'.tracker = s.tracker) (hv : s'.hub.Valid)
    (hl : s.hub.connections.length ≤ s'.hub.connections.length)
    (hf : ∀ f, s'.phase.frame? = some f → s.phase.frame? = some f)
    (hr : s'.phase.rest.Sublist s.phase.rest) : s'.Grounded where
  tracker := ht ▸ h.tracker
  hub := hv
  frame f hf' := ht ▸ h.frame f (hf f hf')
  nodup := hr.nodup h.nodup
  bounded n hn := (h.bounded n (hr.subset hn)).trans_le hl

theorem Serves.of_same (h : s.Serves n c sent) (hc : s'.hub.connections[n]? = s.hub.connections[n]?)
    (hm : n ∈ s.hub.members → n ∈ s'.hub.members) (ht : s'.tracker = s.tracker)
    (hd : s.phase.condemned? = some n → s'.phase.condemned? = some n)
    (hp : n ∈ s.hub.members → s'.phase.pending n = s.phase.pending n) : s'.Serves n c sent := by
  refine ⟨hc.trans h.connection, h.carries, fun hopen hsafe => ?_⟩
  obtain ⟨hmem, htrue⟩ := h.current hopen fun he => hsafe (hd he)
  refine ⟨hm hmem, ?_⟩
  rw [hp hmem, ht]
  exact htrue

/-- The connection of a client that joined goes on from where it was. -/
def Continues (s : Scene) (n : Nat) (c : Connection Frame) (sent : List Frame) : Prop :=
  ∃ c' sent', s.Serves n c' sent' ∧ c'.held = c.held ∧ (c.closed = true → c'.closed = true) ∧
    (c.held = true → sent' = sent) ∧ sent <+: sent'

theorem Serves.continues (h : s.Serves n c sent) : s.Continues n c sent :=
  ⟨c, sent, h, rfl, id, fun _ => rfl, List.prefix_rfl⟩

theorem Serves.close (h : s.Serves n c sent) (hc : s'.hub.connections[n]? = some c.close) :
    s'.Continues n c sent := by
  refine ⟨c.close, sent, ⟨hc, h.carries.close, fun hopen => ?_⟩, c.close_held, fun _ => c.close_closed,
    fun _ => rfl, List.prefix_rfl⟩
  simp [c.close_closed] at hopen

end Scene

theorem Client.Fits.mono {client : Client} {c c' : Connection Frame} {sent sent' : List Frame}
    (h : client.Fits c sent) (hh : c'.held = c.held) (hc : c.closed = true → c'.closed = true)
    (hs : c.held = true → sent' = sent) (hp : sent <+: sent') : client.Fits c' sent' := by
  cases client with
  | away | held n => exact h
  | registered n => exact ⟨hh.trans h.1, (hs h.1).trans h.2⟩
  | briefed n markers time => exact ⟨hh.trans h.1, (hs h.1).trans h.2.1, h.2.2⟩
  | live n markers time =>
    obtain ⟨more, rfl⟩ := hp
    exact ⟨hh.trans h.1, by simp [h.2]⟩
  | refused n => exact ⟨hh.trans h.1, hc h.2⟩

namespace Scene.Hosts

variable {cfg : Fleet.Settings} {s s' : Scene} {n : Nat} {client : Client}

/-- What a step has to keep that is none of the client's own. -/
theorem keep (h : s.Hosts client)
    (hheld : ∀ n c, client = .held n → n ∉ s.hub.members → n ∉ s.phase.rest →
      s.hub.connections[n]? = some c → n ∉ s'.hub.members ∧ n ∉ s'.phase.rest ∧
        (s'.hub.connections[n]? = some c ∨ s'.hub.connections[n]? = some c.close))
    (hjoined : ∀ n c sent, client.number? = some n → s.Serves n c sent → s'.Continues n c sent) :
    s'.Hosts client := by
  cases h with
  | away => exact .away
  | @held n c hc hs hh hb hm hr =>
    obtain ⟨hm', hr', hc' | hc'⟩ := hheld n c rfl hm hr hc
    · exact .held hc' hs hh hb hm' hr'
    · exact .held hc' hs.close (c.close_held.trans hh) (c.close_backlog.trans hb) hm' hr'
  | @joined _ n c sent hn hs hf =>
    obtain ⟨c', sent', hs', hh, hc, hsent, hp⟩ := hjoined n c sent hn hs
    exact .joined hn hs' (hf.mono hh hc hsent hp)

theorem change (h : s.Hosts client) {t : Tracker} {m : Fleet.Notice} (now : Time.Instant)
    (hp : s.phase = .idle) (hc : Fleet.Changed cfg s.tracker t (.ok m)) :
    Hosts { s with tracker := t, phase := .changed (.ofNotice now m) } client := by
  refine h.keep (fun n c _ hm _ hconn => ⟨hm, by simp [Phase.rest], .inl hconn⟩) fun n c sent _ hs => ?_
  refine Serves.continues ⟨hs.connection, hs.carries, fun hopen _ => ?_⟩
  obtain ⟨hmem, htrue⟩ := hs.current hopen (by simp [hp, Phase.condemned?])
  rw [hp, Phase.pending, List.append_nil] at htrue
  exact ⟨hmem, htrue.change hc now⟩

theorem begin (h : s.Hosts client) {f : Frame} {order : List Nat} (hp : s.phase = .changed f)
    (ho : order.Perm s.hub.members) : Hosts { s with phase := .telling f order } client := by
  refine h.keep (fun n c _ hm _ hconn => ⟨hm, fun hr => hm (ho.mem_iff.mp hr), .inl hconn⟩) fun n c sent _ hs => ?_
  refine Serves.continues (hs.of_same rfl id rfl (by simp [hp, Phase.condemned?]) fun hmem => ?_)
  simp [hp, Phase.pending, ho.mem_iff.mpr hmem]

theorem tell (h : s.Hosts client) (hg : s.Grounded) {f : Frame} {k : Nat} {rest : List Nat}
    (hp : s.phase = .telling f (k :: rest)) (hk : (s.hub.apply k (·.send f)).2 = none) :
    Hosts { s with hub := (s.hub.apply k (·.send f)).1, phase := .telling f rest } client := by
  have hfresh : k ∉ rest := by
    have hnd := hg.nodup
    rw [hp] at hnd
    exact (List.nodup_cons.mp hnd).1
  refine h.keep (fun n c _ hm hr hconn => ?_) fun n c sent _ hs => ?_
  · rw [hp, Phase.rest, List.mem_cons, not_or] at hr
    refine ⟨by simpa using hm, hr.2, .inl ?_⟩
    simp only [Hub.getElem?_apply_of_ne _ hr.1, hconn]
  · by_cases hn : n = k
    · subst hn
      obtain ⟨hopen, -, hopen', hh, sent', hs', he, hsent, hpre⟩ | ⟨-, why, hw⟩ :=
        hs.carries.send (hg.frame f (by rw [hp]; rfl)).1
      · refine ⟨_, sent', ⟨Hub.getElem?_apply_self _ hs.connection, hs', fun _ _ => ?_⟩, hh, ?_, hsent, hpre⟩
        · obtain ⟨hmem, htrue⟩ := hs.current hopen (by simp [hp, Phase.condemned?])
          refine ⟨by simpa using hmem, ?_⟩
          simp only [hp, Phase.pending, List.mem_cons_self, if_true] at htrue
          simpa [Phase.pending, hfresh, he] using htrue
        · simp [hopen]
      · rw [Hub.apply_of_getElem? _ hs.connection, hw] at hk
        cases hk
    · refine Serves.continues (hs.of_same (Hub.getElem?_apply_of_ne _ hn) (by simp) rfl
        (by simp [hp, Phase.condemned?]) fun _ => ?_)
      simp [hp, Phase.pending, hn]

theorem fail (h : s.Hosts client) (hg : s.Grounded) {f : Frame} {k : Nat} {rest : List Nat} {why : Fault}
    (hp : s.phase = .telling f (k :: rest)) (hk : (s.hub.apply k (·.send f)).2 = some why) :
    Hosts { s with hub := (s.hub.apply k (·.send f)).1, phase := .dropping f k rest } client := by
  refine h.keep (fun n c _ hm hr hconn => ?_) fun n c sent _ hs => ?_
  · rw [hp, Phase.rest, List.mem_cons, not_or] at hr
    refine ⟨by simpa using hm, hr.2, .inl ?_⟩
    simp only [Hub.getElem?_apply_of_ne _ hr.1, hconn]
  · by_cases hn : n = k
    · subst hn
      obtain ⟨-, hnone, -⟩ | ⟨hsame, -⟩ := hs.carries.send (hg.frame f (by rw [hp]; rfl)).1
      · rw [Hub.apply_of_getElem? _ hs.connection, hnone] at hk
        cases hk
      · have hconn := Hub.getElem?_apply_self (·.send f) hs.connection
        rw [hsame] at hconn
        exact Serves.continues ⟨hconn, hs.carries, fun _ hsafe => (hsafe rfl).elim⟩
    · refine Serves.continues (hs.of_same (Hub.getElem?_apply_of_ne _ hn) (by simp) rfl
        (by simp [hp, Phase.condemned?]) fun _ => ?_)
      simp [hp, Phase.pending, hn]

/-- Dropping a member only closes its connection. -/
theorem drop (h : s.Hosts client) (k : Nat) (j : Journal) {phase : Phase} (hr : phase.rest = s.phase.rest)
    (hd : ∀ n, n ≠ k → s.phase.condemned? = some n → phase.condemned? = some n)
    (hp : ∀ n, phase.pending n = s.phase.pending n) :
    Hosts { s with hub := (s.hub.drop k j).1, phase } client := by
  refine h.keep (fun n c _ hm hrest hconn => ⟨?_, by simpa [hr] using hrest, ?_⟩) fun n c sent _ hs => ?_
  · exact fun hmem => hm (List.mem_of_mem_filter hmem)
  · by_cases hn : n = k
    · subst hn
      exact .inr (Hub.getElem?_drop_self j hconn)
    · exact .inl ((Hub.getElem?_drop_of_ne j hn).trans hconn)
  · by_cases hn : n = k
    · subst hn
      exact hs.close (Hub.getElem?_drop_self j hs.connection)
    · exact Serves.continues (hs.of_same (Hub.getElem?_drop_of_ne j hn) (Hub.mem_members_drop j hn).mpr rfl
        (hd n hn) fun _ => hp n)

theorem elsewhere (h : s.Hosts client) {hub : Hub Frame}
    (hn : ∀ n, client.number? = some n →
      hub.connections[n]? = s.hub.connections[n]? ∧ (n ∈ hub.members ↔ n ∈ s.hub.members)) :
    Hosts { s with hub } client := by
  refine h.keep (fun n c hc hm hr hconn => ?_) fun n c sent hc hs => ?_
  · obtain ⟨hsame, hmem⟩ := hn n (hc ▸ rfl)
    exact ⟨fun hm' => hm (hmem.mp hm'), hr, .inl (hsame.trans hconn)⟩
  · obtain ⟨hsame, hmem⟩ := hn n hc
    exact Serves.continues (hs.of_same hsame hmem.mpr rfl id fun _ => rfl)

theorem connect (hg : s.Grounded) (id : Uuid) (client : Client) :
    Hosts { s with hub := (s.hub.connect (Connection.hold { id })).1, client }
      (.held s.hub.connections.length) := by
  refine .held (Hub.getElem?_connect_self _ _) (.hold id) rfl rfl ?_ ?_
  · exact fun hm => lt_irrefl _ (hg.hub.bounded _ hm)
  · exact fun hr => lt_irrefl _ (hg.bounded _ hr)

theorem register (h : s.Hosts (.held n)) (hg : s.Grounded) (j : Journal) :
    Hosts { s with hub := (s.hub.add (some n) j).1, client := .registered n } (.registered n) := by
  cases h with
  | @held _ c hc hs hh hb hm hr =>
    refine .joined rfl ⟨?_, hs, fun _ _ => ⟨?_, ?_⟩⟩ ⟨hh, rfl⟩
    · simp only [Hub.add_hub j hc, Hub.getElem?_replaced hm, hc]
    · simp [Hub.add_hub j hc]
    · simpa [hb] using hg.pending n
  | joined _ _ hf => exact hf.elim

/-- A snapshot that is read after the registration leaves room only for changes that are told. -/
theorem brief (h : s.Hosts (.registered n)) (hg : s.Grounded) {now : Time.Instant}
    (he : Encodable (Frame.snapshot s.tracker.markers now)) :
    Hosts { s with client := .briefed n s.tracker.markers now } (.briefed n s.tracker.markers now) := by
  cases h with
  | @joined _ _ c sent hn hs hf =>
    cases hn
    obtain ⟨hh, rfl⟩ := hf
    refine .joined rfl ⟨hs.connection, hs.carries.of_held hh _, fun hopen hsafe => ?_⟩ ⟨hh, rfl, he⟩
    obtain ⟨hmem, htrue⟩ := hs.current hopen hsafe
    refine ⟨hmem, ?_⟩
    rw [List.append_assoc]
    exact (Truthful.snapshot hg.tracker now).append htrue

section

variable {markers : List Marker} {time : Time.Instant} {why : Fault}

theorem sendFirst (h : s.Hosts (.briefed n markers time))
    (hk : (s.hub.apply n (·.sendFirst (.snapshot markers time))).2 = none) :
    Hosts { s with hub := (s.hub.apply n (·.sendFirst (.snapshot markers time))).1, client := .live n markers time }
      (.live n markers time) := by
  cases h with
  | @joined _ _ c sent hn hs hf =>
    cases hn
    obtain ⟨hh, rfl, he⟩ := hf
    have hconn := Hub.getElem?_apply_self (·.sendFirst (.snapshot markers time)) hs.connection
    cases hopen : c.closed with
    | true =>
      obtain ⟨why, hw⟩ := Connection.sendFirst_of_closed hopen (Frame.snapshot markers time)
      rw [Hub.apply_of_getElem? _ hs.connection, hw] at hk
      cases hk
    | false =>
      obtain ⟨c', hfirst, hs', hh', -⟩ := hs.carries.sendFirst hh hopen he
      rw [hfirst] at hconn
      refine .joined rfl ⟨hconn, hs', fun _ hsafe => ?_⟩ ⟨hh', rfl⟩
      obtain ⟨hmem, htrue⟩ := hs.current hopen hsafe
      refine ⟨by simpa using hmem, ?_⟩
      simpa [hs'.drained hh'] using htrue

theorem refuse (h : s.Hosts (.briefed n markers time))
    (hk : (s.hub.apply n (·.sendFirst (.snapshot markers time))).2 = some why) :
    Hosts { s with hub := (s.hub.apply n (·.sendFirst (.snapshot markers time))).1, client := .refused n }
      (.refused n) := by
  cases h with
  | @joined _ _ c sent hn hs hf =>
    cases hn
    obtain ⟨hh, rfl, he⟩ := hf
    have hconn := Hub.getElem?_apply_self (·.sendFirst (.snapshot markers time)) hs.connection
    cases hopen : c.closed with
    | true =>
      obtain ⟨why, hw⟩ := Connection.sendFirst_of_closed hopen (Frame.snapshot markers time)
      rw [hw] at hconn
      refine .joined rfl ⟨hconn, hs.carries, fun hc => ?_⟩ ⟨hh, hopen⟩
      simp [hopen] at hc
    | false =>
      obtain ⟨c', hfirst, -⟩ := hs.carries.sendFirst hh hopen he
      rw [Hub.apply_of_getElem? _ hs.connection, hfirst] at hk
      cases hk

end

theorem step (h : s.Hosts s.client) (hg : s.Grounded) (hstep : Step cfg s s') : s'.Hosts s'.client := by
  cases hstep with
  | change now hp hc he => exact h.change now hp hc
  | begin hp ho => exact h.begin hp ho
  | tell hp hs => exact h.tell hg hp hs
  | fail hp hs => exact h.fail hg hp hs
  | drop j hp =>
    refine h.drop _ j (by simp [hp, Phase.rest]) (fun n hn hd => ?_) fun n => by simp [hp, Phase.pending]
    simp only [hp, Phase.condemned?, Option.some.injEq] at hd
    exact (hn hd.symm).elim
  | finish hp =>
    refine h.keep (fun n c _ hm _ hconn => ⟨hm, by simp [Phase.rest], .inl hconn⟩) fun n c sent _ hs => ?_
    exact Serves.continues (hs.of_same rfl id rfl (by simp [hp, Phase.condemned?]) fun _ => by simp [hp, Phase.pending])
  | connect id hc => exact connect hg id _
  | register j hc => exact register (hc ▸ h) hg j
  | brief now hc he => exact brief (hc ▸ h) hg he
  | sendFirst hc hs => exact sendFirst (hc ▸ h) hs
  | refuse hc hs => exact refuse (hc ▸ h) hs
  | leave n j => exact h.drop n j rfl (fun _ _ => id) fun _ => rfl
  | elsewhere hv hl hn => exact h.elsewhere hn

end Scene.Hosts

section

variable {cfg : Fleet.Settings} {s s' : Scene}

theorem Scene.Grounded.step (hg : s.Grounded) (hh : s.Hosts s.client) (hstep : Step cfg s s') : s'.Grounded := by
  cases hstep with
  | change now hp hc he =>
    refine ⟨hc.valid hg.tracker, hg.hub, fun f hf => ?_, List.nodup_nil, by simp [Phase.rest]⟩
    cases hf
    exact ⟨he, by simpa using (Truthful.nil _).change hc now⟩
  | begin hp ho =>
    refine ⟨hg.tracker, hg.hub, fun f hf => ?_, ho.nodup_iff.mpr hg.hub.nodup,
      fun n hn => hg.hub.bounded n (ho.mem_iff.mp hn)⟩
    exact hg.frame f (by rw [hp]; exact hf)
  | tell hp hs | fail hp hs =>
    exact hg.mono rfl (hg.hub.apply _) (by simp) (by simp [hp, Phase.frame?]) (by simp [hp, Phase.rest])
  | drop j hp =>
    exact hg.mono rfl (hg.hub.drop j) (by simp) (by simp [hp, Phase.frame?]) (by simp [hp, Phase.rest])
  | finish hp => exact hg.mono rfl hg.hub le_rfl (by simp [Phase.frame?]) (by simp [Phase.rest])
  | connect id hc => exact hg.mono rfl (hg.hub.connect _) (by simp [Hub.connect]) (by simp) (List.Sublist.refl _)
  | register j hc =>
    rw [hc] at hh
    cases hh with
    | held hconn _ _ _ hm _ =>
      exact hg.mono rfl (hg.hub.add j hconn hm) (by simp [Hub.add_hub j hconn]) (by simp) (List.Sublist.refl _)
    | joined _ _ hf => exact hf.elim
  | brief now hc he => exact hg.mono rfl hg.hub le_rfl (by simp) (List.Sublist.refl _)
  | sendFirst hc hs | refuse hc hs =>
    exact hg.mono rfl (hg.hub.apply _) (by simp) (by simp) (List.Sublist.refl _)
  | leave n j => exact hg.mono rfl (hg.hub.drop j) (by simp) (by simp) (List.Sublist.refl _)
  | elsewhere hv hl hn => exact hg.mono rfl hv hl (by simp) (List.Sublist.refl _)

abbrev Run (cfg : Fleet.Settings) : Scene → Scene → Prop := Relation.ReflTransGen (Step cfg)

/-- Map and hub are in order, nothing is under way, and the client is still to come. -/
structure Scene.Ready (s : Scene) : Prop where
  tracker : s.tracker.Valid
  hub : s.hub.Valid
  idle : s.phase = .idle
  away : s.client = .away

theorem Run.sound (hready : s.Ready) (hrun : Run cfg s s') : s'.Grounded ∧ s'.Hosts s'.client := by
  induction hrun with
  | refl =>
    refine ⟨⟨hready.tracker, hready.hub, ?_, ?_, ?_⟩, hready.away ▸ .away⟩ <;> rw [hready.idle]
    · simp [Phase.frame?]
    · exact List.nodup_nil
    · simp [Phase.rest]
  | tail _ hstep ih => exact ⟨ih.1.step ih.2 hstep, ih.2.step ih.1 hstep⟩

/-- The connection of the client stays as it is once it is closed. -/
theorem Step.closed {n : Nat} {c : Connection Frame} (hstep : Step cfg s s') (hn : s.client.number? = some n)
    (hc : s.hub.connections[n]? = some c) (hclosed : c.closed = true) :
    s'.client.number? = some n ∧ s'.hub.connections[n]? = some c := by
  have hsend (k : Nat) (f : Frame) : (s.hub.apply k (·.send f)).1.connections[n]? = some c :=
    Hub.getElem?_apply_fixed _ hc (Connection.send_of_closed hclosed f) k
  have hfirst (k : Nat) (f : Frame) : (s.hub.apply k (·.sendFirst f)).1.connections[n]? = some c := by
    obtain ⟨why, hw⟩ := Connection.sendFirst_of_closed hclosed f
    exact Hub.getElem?_apply_fixed _ hc (by rw [hw]) k
  have hdrop (k : Nat) (j : Journal) : (s.hub.drop k j).1.connections[n]? = some c := by
    by_cases hk : n = k
    · subst hk
      rw [Hub.getElem?_drop_self j hc, Connection.close_of_closed hclosed]
    · rw [Hub.getElem?_drop_of_ne j hk, hc]
  cases hstep with
  | change | begin | finish => exact ⟨hn, hc⟩
  | tell hp hs | fail hp hs => exact ⟨hn, hsend _ _⟩
  | drop j hp | leave k j => exact ⟨hn, hdrop _ j⟩
  | connect id haway => simp [haway, Client.number?] at hn
  | register j hheld =>
    rw [hheld] at hn
    cases hn
    exact ⟨rfl, by simp only [Hub.add_hub j hc, Hub.getElem?_replaced_of_closed hc hclosed]⟩
  | brief now hreg he =>
    rw [hreg] at hn
    exact ⟨hn, hc⟩
  | sendFirst hb hs | refuse hb hs =>
    rw [hb] at hn
    exact ⟨hn, hfirst _ _⟩
  | elsewhere hv hl hsame => exact ⟨hn, (hsame n hn).1.trans hc⟩

theorem Run.closed {n : Nat} {c : Connection Frame} (hrun : Run cfg s s') (hn : s.client.number? = some n)
    (hc : s.hub.connections[n]? = some c) (hclosed : c.closed = true) : s'.hub.connections[n]? = some c := by
  have hboth : s'.client.number? = some n ∧ s'.hub.connections[n]? = some c := by
    induction hrun with
    | refl => exact ⟨hn, hc⟩
    | tail _ hstep ih => exact hstep.closed ih.1 ih.2 hclosed
  exact hboth.2

/-- Only a client that is live was written to. -/
theorem Client.Fits.live_of_open {client : Client} {c : Connection Frame} {sent : List Frame} {n : Nat}
    (h : client.Fits c sent) (hn : client.number? = some n) (hh : c.held = false) :
    ∃ markers time, client = .live n markers time := by
  cases client with
  | away | held k => exact h.elim
  | registered k | briefed k markers time | refused k => simp [h.1] at hh
  | live k markers time =>
    cases hn
    exact ⟨markers, time, rfl⟩

/-- What a connected client got so far, over the connection it has. -/
theorem Scene.Hosts.received {client : Client} {n : Nat} (h : s.Hosts client) (hn : client.number? = some n) :
    ∃ c frames, s.hub.connections[n]? = some c ∧ c.received.map .ok = frames.map Frame.encode ∧
      (frames = [] ∨ c.held = false ∧ ∃ markers time, client = .live n markers time) ∧
      ∀ markers time, client = .live n markers time →
        frames.head? = some (.snapshot markers time) ∧
          (c.closed = false → s.phase = .idle → Truthful frames s.tracker) := by
  cases h with
  | away => cases hn
  | @held _ c hc hs hh hb hm hr =>
    cases hn
    exact ⟨c, [], hc, by simpa [hh] using hs.received, .inl rfl, by simp⟩
  | @joined _ k c sent hk hs hf =>
    cases hn.symm.trans hk
    refine ⟨c, if c.held then [] else sent, hs.connection, hs.carries.received, ?_, ?_⟩
    · cases hh : c.held with
      | true => exact .inl rfl
      | false => exact .inr ⟨rfl, hf.live_of_open hn hh⟩
    · rintro markers time rfl
      obtain ⟨hh, hfirst⟩ := hf
      simp only [hh, Bool.false_eq_true, if_false]
      refine ⟨hfirst, fun hopen hidle => ?_⟩
      obtain ⟨-, htrue⟩ := hs.current hopen (by simp [hidle, Phase.condemned?])
      simpa [hidle, Phase.pending, hs.carries.drained hh] using htrue

end

/-- A client shows the map whenever its snapshot is out, its connection is open and no change is under
way; the snapshot comes first, and nothing comes over a connection that was dropped while held. -/
theorem replica_converges {cfg : Fleet.Settings} {s₀ s : Scene} (hready : s₀.Ready) (hrun : Run cfg s₀ s)
    {n : Nat} (hn : s.client.number? = some n) :
    ∃ c frames, s.hub.connections[n]? = some c ∧ c.received.map .ok = frames.map Frame.encode ∧
      (∀ f, frames.head? = some f ↔ ∃ markers time, s.client = .live n markers time ∧ f = .snapshot markers time) ∧
      (∀ markers time, s.client = .live n markers time → c.closed = false → s.phase = .idle →
        Replica.replay frames = Replica.ofMarkers s.tracker.markers) ∧
      (c.closed = true → c.held = true →
        ∀ s', Run cfg s s' → ∃ c', s'.hub.connections[n]? = some c' ∧ c'.received = []) := by
  obtain ⟨hg, hh⟩ := Run.sound hready hrun
  obtain ⟨c, frames, hc, htexts, hwhen, hlive⟩ := hh.received hn
  refine ⟨c, frames, hc, htexts, fun f => ⟨fun hf => ?_, ?_⟩, ?_, ?_⟩
  · obtain rfl | ⟨-, markers, time, hclient⟩ := hwhen
    · cases hf
    · exact ⟨markers, time, hclient, Option.some.inj (hf.symm.trans (hlive markers time hclient).1)⟩
  · rintro ⟨markers, time, hclient, rfl⟩
    exact (hlive markers time hclient).1
  · intro markers time hclient hopen hidle
    obtain ⟨hfirst, htrue⟩ := hlive markers time hclient
    exact (htrue hopen hidle).replay hg.tracker hfirst
  · intro hclosed hheld s' hrun'
    refine ⟨c, hrun'.closed hn hc hclosed, ?_⟩
    obtain rfl | ⟨hopen, -⟩ := hwhen
    · simpa using htexts
    · simp [hheld] at hopen

/-- A map of one bin, with no client. -/
def oneBin : Scene where
  tracker := { shown := [("a", { deviceId := "a" })], sent := [("a", [])] }
  hub := { service := "map" }

theorem oneBin_ready : oneBin.Ready where
  tracker := ⟨List.pairwise_singleton _ _, by simp [oneBin]⟩
  hub := ⟨List.nodup_nil, by simp [oneBin]⟩
  idle := rfl
  away := rfl

/-- The bin is forgotten after the registration of a client, and the client told after its snapshot. -/
theorem replica_converges_forgotten : ∃ s, Run ⟨100.0, 80.0, false⟩ oneBin s ∧
    s.client = .live 0 [] .zero ∧ s.phase = .idle ∧
    ∃ c frames, s.hub.connections[0]? = some c ∧ c.closed = false ∧ c.received.length = 2 ∧
      c.received.map .ok = frames.map Frame.encode ∧
      Replica.replay frames = Replica.ofMarkers s.tracker.markers := by
  have hforget : Fleet.Changed ⟨100.0, 80.0, false⟩ oneBin.tracker (oneBin.tracker.forget "a").1
      (.ok (.removed "a")) := .removed rfl
  have hstart : Run ⟨100.0, 80.0, false⟩ oneBin oneBin := .refl
  have hregistered := (hstart.tail (.connect .zero rfl)).tail (.register {} rfl)
  have hbriefed := (hregistered.tail (.change .zero rfl hforget ⟨_, rfl⟩)).tail (.brief .zero rfl ⟨_, rfl⟩)
  have htold := ((hbriefed.tail (.begin rfl (.refl _))).tail (.tell rfl rfl)).tail (.finish rfl)
  have hrun := htold.tail (.sendFirst rfl rfl)
  obtain ⟨c, frames, hc, htexts, -, hshows, -⟩ := replica_converges oneBin_ready hrun (n := 0) rfl
  have hopen : c.closed = false ∧ c.received.length = 2 := by
    cases hc
    exact ⟨rfl, rfl⟩
  exact ⟨_, hrun, rfl, rfl, c, frames, hc, hopen.1, hopen.2, htexts, hshows [] .zero rfl hopen.1 rfl⟩

end BinFleet.Live
