import BinFleet.Proofs.Fleet.AcceptedLog
import Mathlib.Logic.Relation

namespace BinFleet.Fleet

/-- A call that has changed the map, and how many listeners it has told. -/
structure Call where
  context : LogContext
  notice : Notice
  told : Nat := 0

/-- A change of the map, with the calls about its device that were on their way when it was made. -/
structure Change where
  notice : Notice
  rivals : List Call

/-- The notices that a listener may hear last when a change is the last of its device. -/
def Change.Allows (g : Change) (j : Nat) (n : Notice) : Prop :=
  n = g.notice ∨ ∃ c ∈ g.rivals, c.told ≤ j ∧ n = c.notice

/-- A service with the calls that are on their way, the changes they made and what each listener
heard, oldest first. -/
structure Traffic (σ : Type) where
  state : State σ
  calls : List Call := []
  changes : List Change := []
  heard : List (Nat × Notice) := []

namespace Traffic

variable {σ : Type} {v : Service σ} {t t' : Traffic σ}

/-- A call changes the map in one step and then tells the listeners one by one, so notices about one device
can overtake each other. -/
inductive Step (v : Service σ) (t : Traffic σ) : Traffic σ → Prop where
  | refuse {order : Order} {f : Fault} (h : (v.change order t.state).2 = .error f) :
      Step v t { t with state := (v.change order t.state).1 }
  | change {order : Order} {n : Notice} (h : (v.change order t.state).2 = .ok n) :
      Step v t { t with
        state := (v.change order t.state).1
        calls := t.calls ++ [{ context := order.context, notice := n }]
        changes := t.changes ++ [⟨n, t.calls.filter fun c => c.notice.deviceId = n.deviceId⟩] }
  | tell {before after : List Call} {c : Call} {l : Listener σ} (hc : t.calls = before ++ c :: after)
      (hl : v.listeners[c.told]? = some l) :
      Step v t { t with
        state := Service.hear c.context c.notice l t.state
        calls := before ++ { c with told := c.told + 1 } :: after
        heard := t.heard ++ [(c.told, c.notice)] }
  | finish {before after : List Call} {c : Call} (hc : t.calls = before ++ c :: after)
      (hl : c.told = v.listeners.length) :
      Step v t { t with state := Service.conclude c.context c.notice t.state, calls := before ++ after }

abbrev Run (v : Service σ) : Traffic σ → Traffic σ → Prop := Relation.ReflTransGen (Step v)

/-- The last change of a device. -/
def lastChange (t : Traffic σ) (id : String) : Option Change :=
  (t.changes.filter fun g => g.notice.deviceId = id).getLast?

/-- What a listener heard last about a device. -/
def lastHeard (t : Traffic σ) (j : Nat) (id : String) : Option Notice :=
  ((t.heard.filter fun p => p.1 = j ∧ p.2.deviceId = id).getLast?).map (·.2)

theorem getLast?_filter_concat {α : Type} (p : α → Bool) (l : List α) (a : α) :
    ((l ++ [a]).filter p).getLast? = if p a then some a else (l.filter p).getLast? := by
  cases h : p a <;> simp [h]

theorem lastChange_concat {g : Change} (h : t'.changes = t.changes ++ [g]) (id : String) :
    t'.lastChange id = if g.notice.deviceId = id then some g else t.lastChange id := by
  rw [lastChange, h, getLast?_filter_concat]
  simp [lastChange]

theorem lastHeard_concat {k : Nat} {n : Notice} (h : t'.heard = t.heard ++ [(k, n)]) (j : Nat) (id : String) :
    t'.lastHeard j id = if k = j ∧ n.deviceId = id then some n else t.lastHeard j id := by
  rw [lastHeard, h, getLast?_filter_concat]
  by_cases hk : k = j ∧ n.deviceId = id <;> simp [hk, lastHeard]

theorem lastHeard_deviceId {j : Nat} {id : String} {n : Notice} (h : t.lastHeard j id = some n) :
    n.deviceId = id := by
  obtain ⟨p, hp, rfl⟩ := Option.map_eq_some_iff.mp h
  have hmem := List.mem_of_getLast? hp
  simp only [List.mem_filter, decide_eq_true_eq] at hmem
  exact hmem.2.2

/-- What the last change of each device was, who is still to be told, and who heard what last. -/
structure Settling (v : Service σ) (start : Tracker) (t : Traffic σ) : Prop where
  unchanged : ∀ id, t.lastChange id = none → t.state.tracker.marker? id = start.marker? id
  current : ∀ id g, t.lastChange id = some g → t.state.tracker.marker? id = g.notice.marker?
  pending : ∀ c ∈ t.calls, ∀ j, c.told ≤ j → ∃ g, t.lastChange c.notice.deviceId = some g ∧ g.Allows j c.notice
  silent : ∀ id, t.lastChange id = none → ∀ j, t.lastHeard j id = none
  heard : ∀ id g, t.lastChange id = some g → ∀ j < v.listeners.length,
    (∃ c ∈ t.calls, c.notice.deviceId = id ∧ c.told ≤ j) ∨ ∃ n, t.lastHeard j id = some n ∧ g.Allows j n

namespace Settling

variable {start : Tracker}

theorem refuse (h : Settling v start t) {order : Order} {f : Fault} (hf : (v.change order t.state).2 = .error f) :
    Settling v start { t with state := (v.change order t.state).1 } := by
  have hc := v.change_changed order t.state
  rw [hf] at hc
  have ht : (v.change order t.state).1.tracker = t.state.tracker := by
    generalize (v.change order t.state).1.tracker = tracker at hc
    cases hc
    rfl
  exact ⟨fun id hid => ht ▸ h.unchanged id hid, fun id g hg => ht ▸ h.current id g hg, h.pending, h.silent, h.heard⟩

/-- A change is the last of its device, and whatever is on its way about the device is its rival. -/
theorem change (h : Settling v start t) {context : LogContext} {n : Notice}
    (hc : Changed v.settings t.state.tracker t'.state.tracker (.ok n))
    (hcalls : t'.calls = t.calls ++ [{ context, notice := n }])
    (hchanges : t'.changes = t.changes ++ [⟨n, t.calls.filter fun c => c.notice.deviceId = n.deviceId⟩])
    (hheard : t'.heard = t.heard) : Settling v start t' := by
  have hlast := lastChange_concat hchanges
  have hsame (j : Nat) (id : String) : t'.lastHeard j id = t.lastHeard j id := by
    rw [lastHeard, hheard]
    rfl
  constructor
  · intro id hid
    by_cases he : n.deviceId = id
    · simp [hlast, he] at hid
    · rw [hlast, if_neg he] at hid
      rw [hc.marker?_of_ne (Ne.symm he), h.unchanged id hid]
  · intro id g hg
    by_cases he : n.deviceId = id
    · rw [hlast, if_pos he] at hg
      cases hg
      rw [← he, hc.marker?_self]
    · rw [hlast, if_neg he] at hg
      rw [hc.marker?_of_ne (Ne.symm he), h.current id g hg]
  · intro c hmem j hj
    rw [hcalls, List.mem_append, List.mem_singleton] at hmem
    rcases hmem with hmem | rfl
    · by_cases he : n.deviceId = c.notice.deviceId
      · rw [hlast, if_pos he]
        exact ⟨_, rfl, .inr ⟨c, by simp [hmem, he], hj, rfl⟩⟩
      · rw [hlast, if_neg he]
        exact h.pending c hmem j hj
    · rw [hlast, if_pos rfl]
      exact ⟨_, rfl, .inl rfl⟩
  · intro id hid j
    by_cases he : n.deviceId = id
    · simp [hlast, he] at hid
    · rw [hlast, if_neg he] at hid
      rw [hsame, h.silent id hid j]
  · intro id g hg j hj
    by_cases he : n.deviceId = id
    · exact .inl ⟨_, by rw [hcalls]; exact List.mem_append_right _ (List.mem_singleton_self _), he, Nat.zero_le j⟩
    · rw [hlast, if_neg he] at hg
      rw [hsame]
      refine (h.heard id g hg j hj).imp_left ?_
      rintro ⟨c, hmem, hrest⟩
      exact ⟨c, by rw [hcalls]; exact List.mem_append_left _ hmem, hrest⟩

theorem tell (h : Settling v start t) {before after : List Call} {c : Call} {l : Listener σ}
    (hc : t.calls = before ++ c :: after) :
    Settling v start { t with
      state := Service.hear c.context c.notice l t.state
      calls := before ++ { c with told := c.told + 1 } :: after
      heard := t.heard ++ [(c.told, c.notice)] } := by
  have hmem : c ∈ t.calls := by simp [hc]
  constructor
  · intro id hid
    rw [Service.hear_tracker]
    exact h.unchanged id hid
  · intro id g hg
    rw [Service.hear_tracker]
    exact h.current id g hg
  · intro c' hc' j hj
    rw [List.mem_append, List.mem_cons] at hc'
    rcases hc' with hb | rfl | ha
    · exact h.pending c' (by simp [hc, hb]) j hj
    · exact h.pending c hmem j (Nat.le_of_succ_le hj)
    · exact h.pending c' (by simp [hc, ha]) j hj
  · intro id hid j
    rw [lastHeard_concat rfl, if_neg]
    · exact h.silent id hid j
    · rintro ⟨-, rfl⟩
      obtain ⟨g, hg, -⟩ := h.pending c hmem c.told le_rfl
      cases hid.symm.trans hg
  · intro id g hg j hj
    rw [lastHeard_concat rfl]
    by_cases he : c.told = j ∧ c.notice.deviceId = id
    · obtain ⟨rfl, rfl⟩ := he
      obtain ⟨g', hg', hallows⟩ := h.pending c hmem c.told le_rfl
      cases hg.symm.trans hg'
      exact .inr ⟨c.notice, by simp, hallows⟩
    · rw [if_neg he]
      refine (h.heard id g hg j hj).imp_left ?_
      rintro ⟨c', hc', hid, hle⟩
      rw [hc, List.mem_append, List.mem_cons] at hc'
      rcases hc' with hb | rfl | ha
      · exact ⟨c', by simp [hb], hid, hle⟩
      · exact ⟨{ c' with told := c'.told + 1 }, by simp, hid, Nat.lt_of_le_of_ne hle fun hj => he ⟨hj, hid⟩⟩
      · exact ⟨c', by simp [ha], hid, hle⟩

theorem finish (h : Settling v start t) {before after : List Call} {c : Call}
    (hc : t.calls = before ++ c :: after) (hl : c.told = v.listeners.length) :
    Settling v start { t with state := Service.conclude c.context c.notice t.state, calls := before ++ after } := by
  constructor
  · intro id hid
    rw [Service.conclude_tracker]
    exact h.unchanged id hid
  · intro id g hg
    rw [Service.conclude_tracker]
    exact h.current id g hg
  · intro c' hc' j hj
    refine h.pending c' ?_ j hj
    rw [hc]
    exact List.mem_append.mpr ((List.mem_append.mp hc').imp_right (List.mem_cons_of_mem c))
  · exact h.silent
  · intro id g hg j hj
    refine (h.heard id g hg j hj).imp_left ?_
    rintro ⟨c', hc', hid, hle⟩
    rw [hc, List.mem_append, List.mem_cons] at hc'
    rcases hc' with hb | rfl | ha
    · exact ⟨c', by simp [hb], hid, hle⟩
    · omega
    · exact ⟨c', by simp [ha], hid, hle⟩

theorem step (h : Settling v start t) (hs : Step v t t') : Settling v start t' := by
  cases hs with
  | refuse hf => exact h.refuse hf
  | @change order n hn =>
    have hc := v.change_changed order t.state
    rw [hn] at hc
    exact h.change hc rfl rfl rfl
  | tell hc _ => exact h.tell hc
  | finish hc hl => exact h.finish hc hl

theorem run {s : State σ} (hrun : Run v { state := s } t) : Settling v s.tracker t := by
  induction hrun with
  | refl => exact ⟨fun _ _ => rfl, by simp [lastChange], by simp, fun _ _ _ => rfl, by simp [lastChange]⟩
  | tail _ hs ih => exact ih.step hs

end Settling

/-- One call tells all listeners that it has not told yet. -/
theorem telling_run {before after : List Call} {c : Call} (hc : t.calls = before ++ c :: after)
    (rest : List (Listener σ)) (hrest : v.listeners.drop c.told = rest) :
    Run v t { t with
      state := rest.foldl (fun s l => Service.hear c.context c.notice l s) t.state
      calls := before ++ { c with told := c.told + rest.length } :: after
      heard := t.heard ++ (List.range' c.told rest.length).map fun j => (j, c.notice) } := by
  induction rest generalizing t c with
  | nil =>
    have he : t = { t with calls := before ++ { c with told := c.told + 0 } :: after, heard := t.heard ++ [] } := by
      simp [← hc]
    exact he ▸ .refl
  | cons l rest ih =>
    have hl : v.listeners[c.told]? = some l := by
      have hget := congrArg List.head? hrest
      rwa [List.head?_drop, List.head?_cons] at hget
    have hdrop : v.listeners.drop (c.told + 1) = rest := by
      rw [← List.drop_drop, hrest, List.drop_one, List.tail_cons]
    refine .head (.tell hc hl) ?_
    have htold := ih (t := { t with
      state := Service.hear c.context c.notice l t.state
      calls := before ++ { c with told := c.told + 1 } :: after
      heard := t.heard ++ [(c.told, c.notice)] }) rfl hdrop
    simpa [List.range'_succ, Nat.add_assoc, Nat.add_comm 1] using htold

/-- A call that nobody interrupts is a run. -/
theorem perform_run (t : Traffic σ) {order : Order} {n : Notice} (hn : (v.change order t.state).2 = .ok n) :
    Run v t { t with
      state := (v.perform order t.state).1
      changes := t.changes ++ [⟨n, t.calls.filter fun c => c.notice.deviceId = n.deviceId⟩]
      heard := t.heard ++ (List.range v.listeners.length).map fun j => (j, n) } := by
  have hp : (v.perform order t.state).1 = Service.conclude order.context n
      (v.listeners.foldl (fun s l => Service.hear order.context n l s) (v.change order t.state).1) := by
    unfold Service.perform
    generalize v.change order t.state = changed at hn
    obtain ⟨s, a⟩ := changed
    cases hn
    rfl
  have htold := Relation.ReflTransGen.head (Step.change hn) (telling_run rfl v.listeners rfl)
  have hdone := htold.tail (.finish rfl (Nat.zero_add _))
  simpa [hp, List.range_eq_range'] using hdone

/-- Of two calls that change the map one after the other, the second is done first. -/
theorem overtaking_run {l : Listener σ} (hl : v.listeners = [l]) {s : State σ} {o₁ o₂ : Order} {n₁ n₂ : Notice}
    (h₁ : (v.change o₁ s).2 = .ok n₁) (h₂ : (v.change o₂ (v.change o₁ s).1).2 = .ok n₂) :
    ∃ t, Run v { state := s } t ∧ t.calls = [] ∧ t.heard = [(0, n₂), (0, n₁)] ∧
      t.changes = [⟨n₁, []⟩,
        ⟨n₂, [{ context := o₁.context, notice := n₁ : Call }].filter fun c => c.notice.deviceId = n₂.deviceId⟩] ∧
      t.state.tracker = (v.change o₂ (v.change o₁ s).1).1.tracker := by
  have hstart : Run v { state := s } { state := s } := .refl
  have hchanged := (hstart.tail (.change h₁)).tail (.change h₂)
  have hfirst := hchanged.tail (.tell (rfl : _ = [_] ++ _ :: []) (by rw [hl]; rfl))
  have hsecond := hfirst.tail (.finish (rfl : _ = [_] ++ _ :: []) (by rw [hl]; rfl))
  have htold := hsecond.tail (.tell (rfl : _ = [] ++ _ :: []) (by rw [hl]; rfl))
  have hrun := htold.tail (.finish (rfl : _ = [] ++ _ :: []) (by rw [hl]; rfl))
  refine ⟨_, hrun, rfl, rfl, rfl, ?_⟩
  simp only [Service.conclude_tracker, Service.hear_tracker]

end Traffic

/-- When all calls are done, a listener heard of every device that was changed and of no other one. If
no notice about the device was still on its way to it when the last change was made, what it heard last
is what the map shows. -/
theorem last_notice_current {σ : Type} {v : Service σ} {s : State σ} {t : Traffic σ}
    (hrun : Traffic.Run v { state := s } t) (hdone : t.calls = []) {j : Nat} (hj : j < v.listeners.length)
    (id : String) :
    (t.lastChange id = none →
      t.lastHeard j id = none ∧ t.state.tracker.marker? id = s.tracker.marker? id) ∧
    ∀ g, t.lastChange id = some g → ∃ n, t.lastHeard j id = some n ∧
      ((∀ c ∈ g.rivals, j < c.told) →
        (n = .removed id ↔ t.state.tracker.marker? id = none) ∧
          ∀ m, t.state.tracker.marker? id = some m ↔ ∃ u, n = .updated u ∧ u.marker = m) := by
  have h := Traffic.Settling.run hrun
  refine ⟨fun hnone => ⟨h.silent id hnone j, h.unchanged id hnone⟩, fun g hg => ?_⟩
  obtain ⟨c, hc, -⟩ | ⟨n, hheard, hallows⟩ := h.heard id g hg j hj
  · simp [hdone] at hc
  · refine ⟨n, hheard, fun halone => ?_⟩
    have hlast : n = g.notice := by
      obtain he | ⟨c, hc, hle, -⟩ := hallows
      · exact he
      · exact absurd hle (Nat.not_le.mpr (halone c hc))
    have hid := Traffic.lastHeard_deviceId hheard
    rw [h.current id g hg, ← hlast]
    cases n with
    | updated u => simp [Notice.marker?]
    | removed k => simpa [Notice.marker?, Notice.deviceId] using hid

/-- A service with one listener, which takes all notices. -/
def attentive : Service Unit where
  settings := ⟨100.0, 80.0, false⟩
  readClock _ := (.zero, ())
  listeners := [⟨fun _ _ p => (p, none), fun _ _ p => (p, none)⟩]
  resolver := none

def twoBins : State Unit :=
  ⟨{ shown := [("a", { deviceId := "a" }), ("b", { deviceId := "b" })], sent := [("a", []), ("b", [])] }, (), {}⟩

/-- Two bins are forgotten at the same time, and the notices overtake each other. -/
theorem last_notice_current_forgotten : ∃ t n, Traffic.Run attentive { state := twoBins } t ∧
    t.calls = [] ∧ t.heard.map (·.2.deviceId) = ["b", "a"] ∧ t.lastHeard 0 "a" = some n ∧
    (n = .removed "a" ↔ t.state.tracker.marker? "a" = none) ∧ t.state.tracker.marker? "a" = none := by
  have ha : (attentive.change (.forget {} "a") twoBins).2 = .ok (.removed "a") := rfl
  have hb : (attentive.change (.forget {} "b") (attentive.change (.forget {} "a") twoBins).1).2 =
      .ok (.removed "b") := rfl
  obtain ⟨t, hrun, hdone, hheard, hchanges, htracker⟩ := Traffic.overtaking_run rfl ha hb
  have hlast : t.lastChange "a" = some ⟨.removed "a", []⟩ := by
    rw [Traffic.lastChange, hchanges]
    rfl
  obtain ⟨n, hn, halone⟩ := (last_notice_current hrun hdone (j := 0) (by decide) "a").2 _ hlast
  have hgone : t.state.tracker.marker? "a" = none := by
    rw [htracker]
    rfl
  exact ⟨t, n, hrun, hdone, by rw [hheard]; rfl, hn, (halone (by simp)).1, hgone⟩

/-- Two changes of one device can be heard in the opposite order, and the listener is left with the
first of them. -/
theorem overtaken_notice_heard_last {σ : Type} {v : Service σ} {l : Listener σ} (hl : v.listeners = [l])
    {s : State σ} {o₁ o₂ : Order} {n₁ n₂ : Notice} (h₁ : (v.change o₁ s).2 = .ok n₁)
    (h₂ : (v.change o₂ (v.change o₁ s).1).2 = .ok n₂) (hid : n₁.deviceId = n₂.deviceId) :
    ∃ t, Traffic.Run v { state := s } t ∧ t.calls = [] ∧ t.heard = [(0, n₂), (0, n₁)] ∧
      t.lastHeard 0 n₂.deviceId = some n₁ ∧ t.state.tracker.marker? n₂.deviceId = n₂.marker? := by
  obtain ⟨t, hrun, hdone, hheard, -, htracker⟩ := Traffic.overtaking_run hl h₁ h₂
  have hc := v.change_changed o₂ (v.change o₁ s).1
  rw [h₂] at hc
  refine ⟨t, hrun, hdone, hheard, ?_, ?_⟩
  · simp [Traffic.lastHeard, hheard, hid]
  · rw [htracker, hc.marker?_self]

/-- A bin that is forgotten right after an accepted reading can stay with a listener for good. -/
theorem ghost_of_overtaken_forget {σ : Type} {v : Service σ} {l : Listener σ} (hl : v.listeners = [l])
    (s : State σ) {r : Reading} (hsource : r.source ≠ "") (hr : (r.checks {}).isValid) :
    ∃ t u, Traffic.Run v { state := s } t ∧ t.calls = [] ∧ t.heard = [(0, .removed r.id), (0, .updated u)] ∧
      t.lastHeard 0 r.id = some (.updated u) ∧ t.state.tracker.marker? r.id = none := by
  obtain ⟨u, hu, hid⟩ : ∃ u, (v.change (.ingest {} r) s).2 = .ok (.updated u) ∧ u.marker.deviceId = r.id := by
    simp only [Service.change, if_neg hsource, if_pos hr]
    exact ⟨_, rfl, v.arrive_id r s⟩
  have hvisible : ((v.change (.ingest {} r) s).1.tracker.marker? r.id).isSome := by
    have hc := v.change_changed (.ingest {} r) s
    rw [hu] at hc
    have hm := hc.marker?_self
    rw [Notice.deviceId, hid] at hm
    rw [hm]
    rfl
  obtain ⟨t, hrun, hdone, hheard, hlast, hgone⟩ :=
    overtaken_notice_heard_last hl hu (v.change_forget {} hvisible) hid
  exact ⟨t, u, hrun, hdone, hheard, hlast, hgone⟩

def plainReading : Reading :=
  { id := "a", distance := 10.0, lat := 1.0, latScale := 1.0, long := 1.0, longScale := 1.0
    source := Reading.telemetrySource }

/-- A first reading is taken in and its bin is forgotten; the notices overtake each other, and the listener
is left with a bin that is not there. A bin that was never there is not visible either, and its removal,
which is refused, is not heard of. -/
theorem last_notice_not_always_current :
    (∃ t u, Traffic.Run attentive { state := .fresh () {} } t ∧ t.calls = [] ∧
      t.heard = [(0, .removed "a"), (0, .updated u)] ∧
      t.lastHeard 0 "a" = some (.updated u) ∧ t.state.tracker.marker? "a" = none) ∧
    ∃ f t, (attentive.change (.forget {} "a") (.fresh () {})).2 = .error f ∧
      t = { state := (attentive.change (.forget {} "a") (.fresh () {})).1 } ∧
      Traffic.Run attentive { state := .fresh () {} } t ∧ t.calls = [] ∧
      t.lastHeard 0 "a" = none ∧ t.state.tracker.marker? "a" = none := by
  constructor
  · have hvalid : (plainReading.checks {}).isValid := by decide +kernel
    exact ghost_of_overtaken_forget rfl (.fresh () {}) (by decide) hvalid
  · have hf : (attentive.change (.forget {} "a") (.fresh () {})).2 =
        .error (Service.unknownDevice (({} : LogContext).withDeviceId "a") "Service.Forget") := rfl
    exact ⟨_, _, hf, rfl, .single (.refuse hf), rfl, rfl, rfl⟩

end BinFleet.Fleet
