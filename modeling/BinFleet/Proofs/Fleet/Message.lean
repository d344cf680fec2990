import BinFleet.Proofs.Fault
import BinFleet.Proofs.Fleet.AcceptedLog

namespace BinFleet.Fleet

/-- A call of a listener, with the journal as the listener found it and as it left it. -/
structure Hearing where
  listener : Nat
  notice : Notice
  before : Journal
  after : Journal

/-- What the listener itself added to a series. -/
def Hearing.growth (h : Hearing) (t : Series) : Int := h.after.metrics.get t - h.before.metrics.get t

variable {σ : Type}

def writeDown (i : Nat) (n : Notice) (call : σ × Journal → (σ × Journal) × Option Fault) :
    (σ × List Hearing) × Journal → ((σ × List Hearing) × Journal) × Option Fault :=
  fun ((world, heard), journal) =>
    let ((world', journal'), failure) := call (world, journal)
    (((world', heard ++ [⟨i, n, journal, journal'⟩]), journal'), failure)

def Listener.watched (l : Listener σ) (i : Nat) : Listener (σ × List Hearing) where
  updated context u := writeDown i (.updated u) (l.updated context u)
  removed context id := writeDown i (.removed id) (l.removed context id)

/-- The same service, with a record of the calls of its listeners. -/
def Service.watched (v : Service σ) : Service (σ × List Hearing) where
  settings := v.settings
  readClock := fun (world, heard) =>
    let (now, world) := v.readClock world
    (now, (world, heard))
  listeners := v.listeners.zipIdx.map fun (l, i) => l.watched i
  resolver := v.resolver.map fun resolve context lng lat (world, heard) =>
    let (world, answer) := resolve context lng lat world
    ((world, heard), answer)

namespace State

def watched (s : State σ) : State (σ × List Hearing) := ⟨s.tracker, (s.world, []), s.journal⟩

/-- Without the record. -/
def plain (s : State (σ × List Hearing)) : State σ := ⟨s.tracker, s.world.1, s.journal⟩

end State

namespace Service

theorem tell_writeDown (context : LogContext) (complaint : String) (i : Nat) (n : Notice)
    (call : σ × Journal → (σ × Journal) × Option Fault) (s : State (σ × List Hearing)) :
    (tell context complaint (writeDown i n call) s).plain = tell context complaint call s.plain ∧
      (tell context complaint (writeDown i n call) s).world.2 =
        s.world.2 ++ [⟨i, n, s.journal, (call (s.world.1, s.journal)).1.2⟩] ∧
      (tell context complaint (writeDown i n call) s).journal.metrics =
        (call (s.world.1, s.journal)).1.2.metrics := by
  obtain ⟨tracker, ⟨world, heard⟩, journal⟩ := s
  simp only [tell, writeDown, State.plain]
  rcases call (world, journal) with ⟨⟨world', journal'⟩, _ | f⟩ <;> exact ⟨rfl, rfl, rfl⟩

/-- Listeners who are told one after the other: each once, in order, and about the same. The rest of the
service sees no difference, and what is counted meanwhile is what they counted. -/
theorem hearAll_watched (context : LogContext) (n : Notice) (ls : List (Listener σ)) (first : Nat)
    (s : State (σ × List Hearing)) :
    let told := ((ls.zipIdx first).map fun (l, i) => l.watched i).foldl (fun s l => hear context n l s) s
    told.plain = ls.foldl (fun s l => hear context n l s) s.plain ∧
      ∃ calls : List Hearing, told.world.2 = s.world.2 ++ calls ∧
        calls.map (fun c => (c.listener, c.notice)) = (List.range' first ls.length).map (·, n) ∧
        ∀ t, told.journal.metrics.get t = s.journal.metrics.get t + (calls.map (·.growth t)).sum := by
  induction ls generalizing first s with
  | nil => exact ⟨rfl, [], by simp, rfl, by simp⟩
  | cons l rest ih =>
    have hone : ∃ complaint call, hear context n (l.watched first) s =
        tell context complaint (writeDown first n call) s ∧
        hear context n l s.plain = tell context complaint call s.plain := by
      cases n with
      | updated u => exact ⟨_, l.updated context u, rfl, rfl⟩
      | removed id => exact ⟨_, l.removed context id, rfl, rfl⟩
    obtain ⟨complaint, call, hwatched, hplain⟩ := hone
    obtain ⟨hstate, hcall, hmetrics⟩ := tell_writeDown context complaint first n call s
    rw [← hwatched] at hstate hcall hmetrics
    rw [← hplain] at hstate
    obtain ⟨htold, calls, hheard, hcalls, hcounted⟩ := ih (first + 1) (hear context n (l.watched first) s)
    refine ⟨?_, ⟨first, n, s.journal, (call (s.world.1, s.journal)).1.2⟩ :: calls, ?_, ?_, ?_⟩
    · rw [List.foldl_cons, ← hstate]
      exact htold
    · rw [hcall, List.append_assoc] at hheard
      exact hheard
    · simpa [List.range'_succ] using hcalls
    · intro t
      have ht := hcounted t
      rw [hmetrics] at ht
      simp only [List.map_cons, List.sum_cons]
      change _ = _ + ((call (s.world.1, s.journal)).1.2.metrics.get t - s.journal.metrics.get t + _)
      exact ht.trans (by omega)

variable (v : Service σ) (context : LogContext) {payload : List UInt8}

theorem decode?_eq_some_iff {r : Reading} : decode? payload = some r ↔
    ∃ j, Json.read? (Text.Utf8.decode payload) = some j ∧ Reading.ofJson {} j = .ok r := by
  simp only [decode?, Option.bind_eq_bind, Option.bind_eq_some_iff]
  refine exists_congr fun j => and_congr_right fun _ => ?_
  cases Reading.ofJson {} j <;> simp [Except.toOption]

theorem handleMessage_unreadable (h : decode? payload = none) (s : State σ) :
    v.handleMessage context payload s = (s.measure fun m => m.inc (.readings "mqtt" false),
      .error (.tagged (context.withAction "handle_reading")
        ((Fault.known .invalidPayload).during "Service.HandleMessage"))) := by
  simp only [handleMessage, h]
  rfl

/-- A reading without a source is an operator's. -/
def sourced (r : Reading) : Reading := if r.source = "" then { r with source := Reading.operatorSource } else r

theorem checks_sourced (r : Reading) : (sourced r).checks {} = r.checks {} := by
  unfold sourced
  split_ifs <;> rfl

/-- The update that an acceptable reading makes, and the state in which listeners are told of it. -/
def install (r : Reading) (s : State σ) : MarkerUpdate × State σ :=
  let (r, s) := v.arrive r s
  v.applyReading r s

theorem ingest_accepted {r : Reading} (h : r.Acceptable) (s : State σ) :
    v.ingest context r s =
      (v.notifyUpdate (context.withDeviceId r.id) (v.install (sourced r) s).1
        (record (context.withDeviceId r.id) (v.install (sourced r) s).1 (v.install (sourced r) s).2),
        .ok (v.install (sourced r) s).1) := by
  rw [← Reading.checks_isValid, ← checks_sourced] at h
  exact if_pos h

theorem ingest_rejected {r : Reading} (h : ¬r.Acceptable) (s : State σ) :
    v.ingest context r s = (s.measure fun m => m.inc (.readings (sourced r).source false),
      .error (.tagged (context.withDeviceId r.id) ((Fault.rejected (r.checks {}).errors).during "Service.Ingest"))) := by
  rw [← Reading.checks_isValid, ← checks_sourced] at h
  rw [← checks_sourced]
  exact if_neg h

/-- The reading that a message brings, under the source that the service gives it. -/
def ofBroker (r : Reading) : Reading := { r with source := Reading.telemetrySource }

theorem sourced_ofBroker (r : Reading) : sourced (ofBroker r) = ofBroker r := if_neg (show "mqtt" ≠ "" by decide)

theorem acceptable_ofBroker (r : Reading) : (ofBroker r).Acceptable ↔ r.Acceptable := by
  rw [← Reading.checks_isValid, ← Reading.checks_isValid]
  rfl

theorem handleMessage_rejected {r : Reading} (h : decode? payload = some r) (hr : ¬r.Acceptable) (s : State σ) :
    v.handleMessage context payload s = (s.measure fun m => m.inc (.readings "mqtt" false),
      .error (.tagged ((context.withAction "handle_reading").withDeviceId r.id)
        ((Fault.rejected (r.checks {}).errors).during "Service.Ingest"))) := by
  simp only [handleMessage, h]
  refine (v.ingest_rejected _ ((acceptable_ofBroker r).not.mpr hr) s).trans ?_
  rw [sourced_ofBroker]
  rfl

/-- The log context in which a reading of the broker is dealt with. -/
def brokerContext (r : Reading) : LogContext := (context.withAction "handle_reading").withDeviceId r.id

theorem handleMessage_accepted {r : Reading} (h : decode? payload = some r) (hr : r.Acceptable) (s : State σ) :
    v.handleMessage context payload s =
      (v.notifyUpdate (brokerContext context r) (v.install (ofBroker r) s).1
        (record (brokerContext context r) (v.install (ofBroker r) s).1 (v.install (ofBroker r) s).2),
        .ok (v.install (ofBroker r) s).1) := by
  simp only [handleMessage, h]
  refine (v.ingest_accepted _ ((acceptable_ofBroker r).mpr hr) s).trans ?_
  rw [sourced_ofBroker]
  rfl

variable {v}

theorem install_watched (r : Reading) (s : State (σ × List Hearing)) :
    (v.watched.install r s).1 = (v.install r s.plain).1 ∧ (v.watched.install r s).2.plain = (v.install r s.plain).2 ∧
      (v.watched.install r s).2.world.2 = s.world.2 := by
  simp only [install, arrive]
  split_ifs <;> exact ⟨rfl, rfl, rfl⟩

@[simp] theorem arrive_source (r : Reading) (s : State σ) : (v.arrive r s).1.source = r.source := by
  unfold arrive
  split_ifs <;> rfl

/-- Nothing but the time is settled on arrival. -/
theorem arrive_reading (r : Reading) (s : State σ) :
    (v.arrive r s).1 = { r with receivedAt := (v.arrive r s).1.receivedAt } := by
  unfold arrive
  split_ifs <;> rfl

theorem get?_install_self (r : Reading) (s : State σ) : (v.install r s).2.tracker.get? r.id =
    some ⟨(v.install r s).1.marker, (s.tracker.history? r.id).getD [] ++ [(v.install r s).1.reading]⟩ := by
  have hself := (v.arrive r s).2.tracker.get?_apply_self (v.arrive r s).1 (v.settings.marker (v.arrive r s).1)
  rw [arrive_id] at hself
  rw [← v.arrive_tracker r s]
  exact hself

theorem get?_install_of_ne {r : Reading} {id : String} (h : id ≠ r.id) (s : State σ) :
    (v.install r s).2.tracker.get? id = s.tracker.get? id := by
  rw [← v.arrive_id r s] at h
  rw [← v.arrive_tracker r s]
  exact (v.arrive r s).2.tracker.get?_apply_of_ne _ _ h

theorem install_journal (r : Reading) (s : State σ) : (v.install r s).2.journal = s.journal := by
  simp only [install, arrive]
  split_ifs <;> rfl

end Service

/-- What a message leaves behind that is turned away. -/
structure TurnedAway (s s' : State σ) (calls : List Hearing) (f : Fault) : Prop where
  cause : f.has .invalidPayload = true
  tracker : s'.tracker = s.tracker
  gauge : s'.gauge = s.gauge
  silent : calls = []
  counted : s'.journal.metrics.get (.readings "mqtt" false) = s.journal.metrics.get (.readings "mqtt" false) + 1

/-- What a message leaves behind that is accepted. -/
structure TakenIn (v : Service σ) (s s' : State σ) (calls : List Hearing) (r : Reading) (u : MarkerUpdate) : Prop where
  reading : u.reading = (v.arrive (Service.ofBroker r) s).1
  appended : s'.tracker.get? r.id = some ⟨u.marker, (s.tracker.history? r.id).getD [] ++ [u.reading]⟩
  others : ∀ id, id ≠ r.id → s'.tracker.get? id = s.tracker.get? id
  counted : s'.journal.metrics.get (.readings "mqtt" true) =
    s.journal.metrics.get (.readings "mqtt" true) + 1 + (calls.map (·.growth (.readings "mqtt" true))).sum
  told : calls.map (fun c => (c.listener, c.notice)) = (List.range v.listeners.length).map (·, .updated u)

namespace Service

variable (v : Service σ) (context : LogContext) {payload : List UInt8}

theorem turnedAway_inc (s : State σ) {f : Fault} (hf : f.has .invalidPayload = true) :
    TurnedAway s (s.measure fun m => m.inc (.readings "mqtt" false)) [] f where
  cause := hf
  tracker := rfl
  gauge := Metrics.get_inc_of_ne _ (by simp)
  silent := rfl
  counted := Metrics.get_inc_self _ _

theorem record_counts (u : MarkerUpdate) (s : State σ) :
    (record context u s).journal.metrics.get (.readings u.reading.source true) =
      s.journal.metrics.get (.readings u.reading.source true) + 1 := by
  refine (Metrics.get_set_of_ne _ (by simp) _).trans ?_
  exact Metrics.get_inc_self s.journal.metrics _

/-- The service as it is watched tells the same story, and each listener has its turn in it. -/
theorem notifyUpdate_watched (u : MarkerUpdate) (s : State (σ × List Hearing)) :
    (v.watched.notifyUpdate context u s).plain = v.notifyUpdate context u s.plain ∧
      ∃ calls : List Hearing, (v.watched.notifyUpdate context u s).world.2 = s.world.2 ++ calls ∧
        calls.map (fun c => (c.listener, c.notice)) = (List.range v.listeners.length).map (·, .updated u) ∧
        ∀ t, (v.watched.notifyUpdate context u s).journal.metrics.get t =
          s.journal.metrics.get t + (calls.map (·.growth t)).sum := by
  rw [List.range_eq_range']
  exact hearAll_watched context (.updated u) v.listeners 0 s

theorem handleMessage_watched (payload : List UInt8) (s : State (σ × List Hearing)) :
    (v.watched.handleMessage context payload s).1.plain = (v.handleMessage context payload s.plain).1 ∧
      (v.watched.handleMessage context payload s).2 = (v.handleMessage context payload s.plain).2 := by
  cases h : decode? payload with
  | none =>
    rw [handleMessage_unreadable _ _ h, handleMessage_unreadable _ _ h]
    exact ⟨rfl, rfl⟩
  | some r =>
    by_cases hr : r.Acceptable
    · obtain ⟨hupdate, hstate, -⟩ := v.install_watched (ofBroker r) s
      rw [handleMessage_accepted _ _ h hr, handleMessage_accepted _ _ h hr, ← hstate, hupdate]
      exact ⟨(v.notifyUpdate_watched _ _ _).1, rfl⟩
    · rw [handleMessage_rejected _ _ h hr, handleMessage_rejected _ _ h hr]
      exact ⟨rfl, rfl⟩

theorem handleMessage_turnedAway (h : ∀ r, decode? payload = some r → ¬r.Acceptable) (s : State σ) :
    ∃ f, (v.handleMessage context payload s).2 = .error f ∧
      TurnedAway s (v.handleMessage context payload s).1
        (v.watched.handleMessage context payload s.watched).1.world.2 f := by
  cases hd : decode? payload with
  | none =>
    rw [handleMessage_unreadable _ _ hd, handleMessage_unreadable _ _ hd]
    exact ⟨_, rfl, turnedAway_inc s (by simp)⟩
  | some r =>
    rw [handleMessage_rejected _ _ hd (h r hd), handleMessage_rejected _ _ hd (h r hd)]
    exact ⟨_, rfl, turnedAway_inc s rfl⟩

theorem handleMessage_takenIn {r : Reading} (h : decode? payload = some r) (hr : r.Acceptable) (s : State σ) :
    ∃ u, (v.handleMessage context payload s).2 = .ok u ∧
      TakenIn v s (v.handleMessage context payload s).1
        (v.watched.handleMessage context payload s.watched).1.world.2 r u := by
  obtain ⟨hupdate, hplain, hheard⟩ : (v.watched.install (ofBroker r) s.watched).1 = (v.install (ofBroker r) s).1 ∧
      (v.watched.install (ofBroker r) s.watched).2.plain = (v.install (ofBroker r) s).2 ∧
      (v.watched.install (ofBroker r) s.watched).2.world.2 = [] := install_watched (ofBroker r) s.watched
  rw [handleMessage_accepted v context h hr, handleMessage_accepted v.watched context h hr, hupdate]
  have hself := get?_install_self (v := v) (ofBroker r) s
  have hothers := fun id (hid : id ≠ r.id) => get?_install_of_ne (v := v) (r := ofBroker r) hid s
  have hjournal := install_journal (v := v) (ofBroker r) s
  have hreading : (v.install (ofBroker r) s).1.reading = (v.arrive (ofBroker r) s).1 := rfl
  have hsource : (v.install (ofBroker r) s).1.reading.source = "mqtt" := arrive_source _ s
  generalize v.install (ofBroker r) s = installed at *
  obtain ⟨u, s₁⟩ := installed
  generalize (v.watched.install (ofBroker r) s.watched).2 = w at *
  generalize brokerContext context r = about
  have htracker : (v.notifyUpdate about u (record about u s₁)).tracker = s₁.tracker :=
    hearAll_tracker about (.updated u) v.listeners _
  obtain ⟨hsame, calls, hcalls, htold, hcounted⟩ := v.notifyUpdate_watched about u (record about u w)
  have hrecorded : (v.watched.notifyUpdate about u (record about u w)).world.2 = calls := by
    rw [hcalls]
    exact congrArg (· ++ calls) hheard
  have hmetrics : (record about u w).journal.metrics.get (.readings "mqtt" true) =
      s.journal.metrics.get (.readings "mqtt" true) + 1 := by
    have hw : w.journal = s.journal := (congrArg State.journal hplain).trans hjournal
    rw [← hsource, record_counts, hw]
  refine ⟨u, rfl, hreading, ?_, ?_, ?_, ?_⟩
  · rw [htracker]
    exact hself
  · intro id hid
    rw [htracker]
    exact hothers id hid
  · have hjournals := congrArg State.journal hsame
    rw [hrecorded, ← hmetrics, ← hcounted, ← hplain]
    exact congrArg (fun j : Journal => j.metrics.get _) hjournals.symm
  · rw [hrecorded]
    exact htold

/-- A message is turned away and leaves nothing but a count of it, or its reading is appended to the
device it names, counted, and told to each listener in turn; and it is turned away only if it brings
no acceptable reading. -/
theorem message_applied_whole_or_turned_away (payload : List UInt8) (s : State σ) :
    let answer := v.handleMessage context payload s
    let watched := v.watched.handleMessage context payload s.watched
    (watched.1.plain = answer.1 ∧ watched.2 = answer.2) ∧
      ((∃ f, answer.2 = .error f ∧ TurnedAway s answer.1 watched.1.world.2 f ∧
          ∀ r, decode? payload = some r → ¬r.Acceptable) ∨
        ∃ r u, answer.2 = .ok u ∧ decode? payload = some r ∧ r.Acceptable ∧
          TakenIn v s answer.1 watched.1.world.2 r u) := by
  intro answer watched
  refine ⟨v.handleMessage_watched context payload s.watched, ?_⟩
  by_cases h : ∃ r, decode? payload = some r ∧ r.Acceptable
  · obtain ⟨r, hd, hr⟩ := h
    obtain ⟨u, hu, htaken⟩ := v.handleMessage_takenIn context hd hr s
    exact .inr ⟨r, u, hu, hd, hr, htaken⟩
  · have hnone : ∀ r, decode? payload = some r → ¬r.Acceptable := fun r hd hr => h ⟨r, hd, hr⟩
    obtain ⟨f, hf, hturned⟩ := v.handleMessage_turnedAway context hnone s
    exact .inl ⟨f, hf, hturned, hnone⟩

end Service

end BinFleet.Fleet
