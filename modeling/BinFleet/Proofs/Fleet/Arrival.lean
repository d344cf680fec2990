import BinFleet.Json.Access
import BinFleet.Proofs.Fleet.Message
import BinFleet.Proofs.Fleet.Writers

namespace BinFleet

namespace Json

/-- What fields do to a part of a record, when each field changes this part by itself. -/
theorem overFields_view {α β : Type} {field : α → String → Json → Except DecodeError α} {view : α → β}
    (change : β → String → Json → β) (h : ∀ ⦃a b k v⦄, field a k v = .ok b → view b = change (view a) k v)
    {old new : α} {j : Json} (hread : overFields field old j = .ok new) :
    view new = j.members.foldl (fun x m => change x m.1 m.2) (view old) := by
  cases j with
  | null => exact congrArg view (Except.ok.inj hread).symm
  | object fields =>
    induction fields generalizing old with
    | nil => exact congrArg view (Except.ok.inj hread).symm
    | cons kv rest ih =>
      cases hfield : field old (unescape kv.1) kv.2 with
      | error e =>
        change (kv :: rest).foldlM (fun a kv => field a (unescape kv.1) kv.2) old = .ok new at hread
        rw [List.foldlM_cons] at hread
        simp only [hfield] at hread
        cases hread
      | ok mid =>
        rw [overFields_cons hfield] at hread
        rw [ih hread, h hfield]
        rfl
  | bool b => cases hread
  | number text => cases hread
  | string body => cases hread
  | array items => cases hread

end Json

namespace Reading

/-- The time of arrival that one member of a document gives, if it gives one. -/
def memberTime? (key : String) : Json → Option Time.Instant
  | .string body => if Text.sameName key "received_at" then Time.Instant.parse? (Json.unescape body) else none
  | _ => none

/-- The time of arrival that a document gives: the last one counts. -/
def sentTime? (j : Json) : Option Time.Instant := j.members.reverse.findSome? fun (k, v) => memberTime? k v

theorem setField_receivedAt ⦃r b : Reading⦄ ⦃key : String⦄ ⦃v : Json⦄ (h : r.setField key v = .ok b) :
    b.receivedAt = (memberTime? key v).getD r.receivedAt := by
  obtain ⟨hname, ht⟩ | ⟨hname, hkept⟩ := setField_received h
  · cases v with
    | null => exact (Except.ok.inj ht).symm
    | string body =>
      rw [memberTime?, if_pos hname]
      cases hparse : Time.Instant.parse? (Json.unescape body) with
      | none => simp [Json.toInstant, hparse] at ht
      | some t =>
        simp only [Json.toInstant, hparse, Except.ok.injEq] at ht
        exact ht.symm
    | _ => cases ht
  · have hnone : memberTime? key v = none := by
      cases v with
      | string body => rw [memberTime?, hname, if_neg Bool.false_ne_true]
      | _ => rfl
    rw [hnone, hkept]
    rfl

theorem foldl_getD {α β : Type} (f : α → Option β) (l : List α) (b : β) :
    l.foldl (fun b a => (f a).getD b) b = (l.reverse.findSome? f).getD b := by
  induction l generalizing b with
  | nil => rfl
  | cons a l ih =>
    rw [List.foldl_cons, ih, List.reverse_cons, List.findSome?_append]
    cases l.reverse.findSome? f <;> simp

theorem ofJson_receivedAt {j : Json} {r : Reading} (h : ofJson {} j = .ok r) :
    r.receivedAt = (sentTime? j).getD .zero := by
  rw [Json.overFields_view (fun t k v => (memberTime? k v).getD t) setField_receivedAt h]
  exact foldl_getD _ _ _

/-- What a bin says about itself: a reading without its source and its time. -/
structure Report where
  id : String
  distance : Float
  lat : Float
  latScale : Float
  long : Float
  longScale : Float
  gpsMessage : String
  deriving DecidableEq

def report (r : Reading) : Report :=
  ⟨r.id, r.distance, r.lat, r.latScale, r.long, r.longScale, r.gpsMessage⟩

/-- When a document's reading arrived, for a service whose clock shows `now`. -/
def arrivalTime (now : Time.Instant) (j : Json) : Time.Instant :=
  match sentTime? j with
  | some t => if t.isZero then now else t
  | none => now

end Reading

namespace Fleet.Service

variable {σ : Type} {v : Service σ} {context : LogContext} {payload : List UInt8} {s : State σ} {u : MarkerUpdate}

theorem arrive_receivedAt {j : Json} {r : Reading} (h : Reading.ofJson {} j = .ok r) (s : State σ) :
    (v.arrive (ofBroker r) s).1.receivedAt = Reading.arrivalTime (v.readClock s.world).1.toUtc j := by
  have htime : (ofBroker r).receivedAt = (Reading.sentTime? j).getD .zero :=
    Reading.ofJson_receivedAt (r := r) h
  rw [arrive, htime, Reading.arrivalTime]
  cases hsent : Reading.sentTime? j with
  | none => rfl
  | some t =>
    simp only [hsent, Option.getD_some] at htime ⊢
    split_ifs
    · rfl
    · exact htime

/-- A service dates all that it accepts by one time. -/
structure Dated (s s' : State σ) (u : MarkerUpdate) (time : Time.Instant) : Prop where
  source : u.reading.source = "mqtt"
  stored : s'.tracker.get? u.reading.id =
    some ⟨u.marker, (s.tracker.history? u.reading.id).getD [] ++ [u.reading]⟩
  receivedAt : u.reading.receivedAt = time
  updatedAt : u.marker.updatedAt = time
  timestamp : u.timestamp = time

/-- An accepted message becomes the update of its reading, at the time at which it arrived. -/
theorem handleMessage_dated (h : (v.handleMessage context payload s).2 = .ok u) :
    ∃ j r, Json.read? (Text.Utf8.decode payload) = some j ∧ Reading.ofJson {} j = .ok r ∧
      u = (v.applyReading (v.arrive (ofBroker r) s).1 s).1 ∧
      Dated s (v.handleMessage context payload s).1 u (Reading.arrivalTime (v.readClock s.world).1.toUtc j) := by
  by_cases hgood : ∃ r, decode? payload = some r ∧ r.Acceptable
  · obtain ⟨r, hd, hr⟩ := hgood
    obtain ⟨j, hj, hread⟩ := decode?_eq_some_iff.mp hd
    obtain ⟨u', hu', htaken⟩ := v.handleMessage_takenIn context hd hr s
    obtain rfl : u = u' := Except.ok.inj (h.symm.trans hu')
    have hupdate : u = (v.applyReading (v.arrive (ofBroker r) s).1 s).1 := by
      rw [handleMessage_accepted v context hd hr] at h
      rw [← Except.ok.inj h, install]
      simp only [applyReading, arrive_tracker]
    have htime := arrive_receivedAt (v := v) hread s
    have hid : u.reading.id = r.id := by
      rw [htaken.reading, arrive_id]
      rfl
    refine ⟨j, r, hj, hread, hupdate, ?_, ?_, ?_, ?_, ?_⟩
    · rw [htaken.reading, arrive_source]
      rfl
    · rw [hid]
      exact htaken.appended
    · rw [htaken.reading]
      exact htime
    · rw [hupdate]
      exact htime
    · rw [hupdate]
      exact htime
  · obtain ⟨f, hf, -⟩ := v.handleMessage_turnedAway context (fun r hd hr => hgood ⟨r, hd, hr⟩) s
    rw [hf] at h
    cases h

theorem arrive_congr {r r' : Reading} (hreport : r.report = r'.report)
    (htime : (v.arrive (ofBroker r) s).1.receivedAt = (v.arrive (ofBroker r') s).1.receivedAt) :
    (v.arrive (ofBroker r) s).1 = (v.arrive (ofBroker r') s).1 := by
  obtain ⟨hid, hdistance, hlat, hlatScale, hlong, hlongScale, hgps⟩ := Reading.Report.mk.inj hreport
  rw [arrive_reading (ofBroker r), arrive_reading (ofBroker r'), htime]
  simp only [ofBroker, hid, hdistance, hlat, hlatScale, hlong, hlongScale, hgps]

/-- An accepted message is of the telemetry's source. It arrives at the time that it brings, if it
brings one, and else at the time of the clock; two messages that report the same in the same state are
told apart by nothing but these times. -/
theorem device_chooses_at_most_its_time {context' : LogContext} {payload' : List UInt8} {u' : MarkerUpdate}
    (h : (v.handleMessage context payload s).2 = .ok u) (h' : (v.handleMessage context' payload' s).2 = .ok u') :
    let now := (v.readClock s.world).1.toUtc
    ∃ j r j' r', Json.read? (Text.Utf8.decode payload) = some j ∧ Reading.ofJson {} j = .ok r ∧
      Json.read? (Text.Utf8.decode payload') = some j' ∧ Reading.ofJson {} j' = .ok r' ∧
      Dated s (v.handleMessage context payload s).1 u (Reading.arrivalTime now j) ∧
      (r.report = r'.report → (u = u' ↔ Reading.arrivalTime now j = Reading.arrivalTime now j')) := by
  intro now
  obtain ⟨j, r, hj, hr, hu, hdated⟩ := handleMessage_dated h
  obtain ⟨j', r', hj', hr', hu', hdated'⟩ := handleMessage_dated h'
  refine ⟨j, r, j', r', hj, hr, hj', hr', hdated, fun hreport => ⟨fun huu => ?_, fun htimes => ?_⟩⟩
  · rw [← hdated.timestamp, ← hdated'.timestamp, huu]
  · have harrived : (v.arrive (ofBroker r) s).1.receivedAt = (v.arrive (ofBroker r') s).1.receivedAt := by
      rw [arrive_receivedAt hr, arrive_receivedAt hr']
      exact htimes
    rw [hu, hu', arrive_congr hreport harrived]

end Fleet.Service

namespace Fleet

def noon : Time.Instant := ⟨1641816000, 0, 0⟩

def clocked : Service Unit := { attentive with readClock := fun _ => (noon, ()) }

/-- What a bin sends: its report, and more members behind it. -/
def reportWith (more : String) : List UInt8 :=
  Text.Utf8.encode (List.flatMap String.toList
    ["\x7b\"id\":\"7\",\"distance\":50,", "\"lat\":3130,\"lat_scale\":1,", "\"long\":5260,\"long_scale\":\"1\"",
      more, "\x7d"])

/-- What the message does on an empty map at noon. -/
def atNoon (more : String) : State Unit × Except Fault MarkerUpdate :=
  clocked.handleMessage {} (reportWith more) (.fresh () {})

def binReport : Reading.Report := ⟨"7", 50.0, 3130.0, 1.0, 5260.0, 1.0, ""⟩

theorem acceptable_of_report {r : Reading} (h : r.report = binReport) : r.Acceptable := by
  have hbin : (Reading.checks ⟨"7", 50.0, 3130.0, 1.0, 5260.0, 1.0, "", "", .zero⟩ {}).isValid = true := by
    decide
  obtain ⟨hid, hdistance, hlat, hlatScale, hlong, hlongScale, -⟩ := Reading.Report.mk.inj h
  rw [← Reading.checks_isValid, ← hbin]
  simp only [Reading.checks, hid, hdistance, hlat, hlatScale, hlong, hlongScale]

/-- A message that brings the bin's report at a time is accepted. -/
theorem atNoon_spec (more : String) (time : Time.Instant)
    (h : (Json.read? (Text.Utf8.decode (reportWith more))).map
      (fun j => (Reading.arrivalTime noon j, (Reading.ofJson {} j).toOption.map (·.report))) =
        some (time, some binReport)) :
    (∃ u, (atNoon more).2 = .ok u) ∧ ∀ j r, Json.read? (Text.Utf8.decode (reportWith more)) = some j →
      Reading.ofJson {} j = .ok r → Reading.arrivalTime noon j = time ∧ r.report = binReport := by
  obtain ⟨j, hj, hspec⟩ := Option.map_eq_some_iff.mp h
  obtain ⟨htime, hreports⟩ := Prod.mk.inj hspec
  obtain ⟨r, hr, hreport⟩ := Option.map_eq_some_iff.mp hreports
  have hd : Service.decode? (reportWith more) = some r := by
    simp only [Service.decode?, hj, Option.bind_eq_bind, Option.bind_some, hr]
  have haccepted := clocked.handleMessage_accepted {} hd (acceptable_of_report hreport) (.fresh () {})
  refine ⟨⟨_, congrArg Prod.snd haccepted⟩, fun j' r' hj' hr' => ?_⟩
  obtain rfl := Option.some.inj (hj.symm.trans hj')
  rw [hr'] at hr
  obtain rfl := Option.some.inj hr
  exact ⟨htime, hreport⟩

def named : String := ",\"source\":\"me\",\"x\":[1]"

def takenBack : String := ",\"Received_At\":\"2001-09-09T01:46:40Z\",\"received_at\":\"0001-01-01T00:00:00Z\""

def backdated : String := ",\"received_at\":\"2001-09-09T01:46:40Z\""

/-- A source and an unknown member make no difference, nor does a time that is taken back. -/
theorem device_chooses_no_source : ∃ u u', (atNoon named).2 = .ok u ∧ (atNoon takenBack).2 = .ok u' ∧
    Service.Dated (.fresh () {}) (atNoon named).1 u noon ∧ u = u' := by
  obtain ⟨⟨u, hu⟩, hspec⟩ := atNoon_spec named noon (by decide +kernel)
  obtain ⟨⟨u', hu'⟩, hspec'⟩ := atNoon_spec takenBack noon (by decide +kernel)
  obtain ⟨j, r, j', r', hj, hr, hj', hr', hdated, hsame⟩ := Service.device_chooses_at_most_its_time hu hu'
  obtain ⟨htime, hreport⟩ := hspec j r hj hr
  obtain ⟨htime', hreport'⟩ := hspec' j' r' hj' hr'
  refine ⟨u, u', hu, hu', ?_, (hsame (hreport.trans hreport'.symm)).mpr (htime.trans htime'.symm)⟩
  rw [← htime]
  exact hdated

/-- Of two messages with one report, one is dated by the clock and the other by the device. -/
theorem device_chooses_its_time : ∃ u u' r r', (atNoon "").2 = .ok u ∧ (atNoon backdated).2 = .ok u' ∧
    Service.decode? (reportWith "") = some r ∧ Service.decode? (reportWith backdated) = some r' ∧
    r.report = r'.report ∧ u.reading.receivedAt = noon ∧ u'.reading.receivedAt ≠ noon ∧
    u'.marker.updatedAt ≠ noon ∧ u ≠ u' := by
  obtain ⟨⟨u, hu⟩, hspec⟩ := atNoon_spec "" noon (by decide +kernel)
  obtain ⟨⟨u', hu'⟩, hspec'⟩ := atNoon_spec backdated ⟨1000000000, 0, 0⟩ (by decide +kernel)
  obtain ⟨j, r, hj, hr, -, hdated⟩ := Service.handleMessage_dated hu
  obtain ⟨j', r', hj', hr', -, hdated'⟩ := Service.handleMessage_dated hu'
  obtain ⟨hclock, hreport⟩ := hspec j r hj hr
  obtain ⟨hsent, hreport'⟩ := hspec' j' r' hj' hr'
  have htime : u.reading.receivedAt = noon := hdated.receivedAt.trans hclock
  have hother : Reading.arrivalTime noon j' ≠ noon := by
    rw [hsent]
    decide
  refine ⟨u, u', r, r', hu, hu', Service.decode?_eq_some_iff.mpr ⟨j, hj, hr⟩,
    Service.decode?_eq_some_iff.mpr ⟨j', hj', hr'⟩, hreport.trans hreport'.symm, htime, ?_, ?_, ?_⟩
  · exact fun heq => hother (hdated'.receivedAt.symm.trans heq)
  · exact fun heq => hother (hdated'.updatedAt.symm.trans heq)
  · rintro rfl
    exact hother (hdated'.receivedAt.symm.trans htime)

end Fleet

end BinFleet
