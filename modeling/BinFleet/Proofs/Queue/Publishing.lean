import BinFleet.Proofs.Fault
import BinFleet.Proofs.Metrics
import BinFleet.Queue.Producer

namespace BinFleet.Queue

section Attempts

variable {attempt givenUp : Nat → Option Fault}

/-- Attempts from number `i` on, `left` of them at most, until one succeeds or the caller gives up. -/
structure Tried (attempt givenUp : Nat → Option Fault) (i left : Nat) (a : Attempts) : Prop where
  made : i < a.made ∧ a.made ≤ i + left
  goesOn : ∀ j, i ≤ j → j + 1 < a.made → attempt j ≠ none ∧ givenUp j = none
  stops : a.made = i + left ∨ attempt (a.made - 1) = none ∨ givenUp (a.made - 1) ≠ none
  failure : a.failure = none ↔ attempt (a.made - 1) = none

/-- The attempt at `i` is the last one. -/
theorem Tried.last {i left : Nat} {failure : Option Fault} (hleft : left = 0 ∨ attempt i = none ∨ givenUp i ≠ none)
    (hfailure : failure = none ↔ attempt i = none) : Tried attempt givenUp i (left + 1) ⟨i + 1, failure⟩ := by
  refine ⟨⟨by simp, by simp⟩, fun j hij hj => ?_, hleft.imp_left fun h => by simp [h], hfailure⟩
  simp only at hj
  omega

/-- After a failure, the attempts go on from the next one. -/
theorem Tried.next {i left : Nat} {a : Attempts} (h : Tried attempt givenUp (i + 1) left a) (hfailed : attempt i ≠ none)
    (hstays : givenUp i = none) : Tried attempt givenUp i (left + 1) a := by
  obtain ⟨hfirst, hmost⟩ := h.made
  refine ⟨⟨by omega, by omega⟩, fun j hij hj => ?_, h.stops.imp_left fun hmade => by omega, h.failure⟩
  rcases Nat.eq_or_lt_of_le hij with rfl | hlt
  · exact ⟨hfailed, hstays⟩
  · exact h.goesOn j hlt hj

theorem retryFrom_tried (i left : Nat) :
    Tried attempt givenUp i (left + 1) (retryFrom attempt givenUp i (left + 1)) := by
  induction left generalizing i with
  | zero =>
    rw [retryFrom]
    cases hi : attempt i with
    | none => exact .last (.inl rfl) (by simp [hi])
    | some failure => exact .last (.inl rfl) (by simp [hi])
  | succ left ih =>
    rw [retryFrom]
    cases hi : attempt i with
    | none => exact .last (.inr (.inl hi)) (by simp [hi])
    | some failure =>
      dsimp only
      rw [if_neg (Nat.succ_ne_zero left)]
      cases hgiven : givenUp i with
      | some reason => exact .last (.inr (.inr (by simp [hgiven]))) (by simp [hi])
      | none => exact (ih (i + 1)).next (by simp [hi]) hgiven

end Attempts

theorem Attempt.failure?_eq_none {a : Attempt} : a.failure? = none ↔ a = .accepted := by
  cases a <;> simp [failure?]

namespace Conditions

variable (conditions : Conditions)

/-- What the attempts come to once there is a message and a connection. -/
def outcome : Attempts := retry publishAttempts (fun i => (conditions.attempt i).failure?) conditions.givenUp

def attempts : List Attempt := (List.range conditions.outcome.made).map conditions.attempt

theorem outcome_tried :
    Tried (fun i => (conditions.attempt i).failure?) conditions.givenUp 0 3 conditions.outcome :=
  retryFrom_tried 0 2

theorem length_attempts : conditions.attempts.length = conditions.outcome.made := by
  simp [attempts]

/-- All attempts but the last one fail. -/
theorem attempts_eq : ∃ n, conditions.outcome.made = n + 1 ∧
    conditions.attempts = (List.range n).map conditions.attempt ++ [conditions.attempt n] ∧
    Attempt.accepted ∉ (List.range n).map conditions.attempt := by
  have h := conditions.outcome_tried
  obtain ⟨n, hn⟩ := Nat.exists_eq_succ_of_ne_zero (Nat.ne_of_gt h.made.1)
  refine ⟨n, hn, by simp [attempts, hn, List.range_succ], fun hmem => ?_⟩
  obtain ⟨i, hi, haccepted⟩ := List.mem_map.mp hmem
  have hlt : i + 1 < conditions.outcome.made := by
    rw [List.mem_range] at hi
    omega
  exact (h.goesOn i (Nat.zero_le i) hlt).1 (Attempt.failure?_eq_none.mpr haccepted)

theorem failure_eq_none_iff : conditions.outcome.failure = none ↔ Attempt.accepted ∈ conditions.attempts := by
  obtain ⟨n, hn, hattempts, hfailed⟩ := conditions.attempts_eq
  rw [conditions.outcome_tried.failure, Attempt.failure?_eq_none, hattempts, hn, List.mem_append, List.mem_singleton,
    or_iff_right hfailed]
  exact eq_comm

theorem count_accepted : conditions.attempts.count .accepted ≤ 1 := by
  obtain ⟨n, -, hattempts, hfailed⟩ := conditions.attempts_eq
  rw [hattempts, List.count_append, List.count_eq_zero_of_not_mem hfailed, Nat.zero_add]
  exact List.count_le_length

end Conditions

section Reports

variable (service : String) (conditions : Conditions) (context : LogContext) (now : Time.Instant)
  (update : MarkerUpdate) (journal : Journal)

/-- However a publication ends, its reason is reported and counted. An event without a message or a
connection is not attempted; any other is offered at each attempt that finds a channel. -/
theorem publish_cases : ∃ attempts offered, ∃ reason : Option Fault, ∃ j : Journal,
    publish service conditions context now update journal =
      ⟨attempts, offered, reason.map (publishFault context), j.count (.published service exchange reason.isNone)⟩ ∧
    j.metrics = journal.metrics ∧
    ((((∃ why, Message.ofUpdate context now update = .error why) ∨ conditions.connection ≠ none) ∧
      attempts = [] ∧ offered = [] ∧ reason ≠ none) ∨
    ∃ message, Message.ofUpdate context now update = .ok message ∧ conditions.connection = none ∧
      attempts = conditions.attempts ∧ reason = conditions.outcome.failure ∧
      offered = (attempts.filter Attempt.offered).map fun _ => ⟨routingKey update.marker.deviceId, message⟩) := by
  dsimp only [publish]
  cases Message.ofUpdate context now update with
  | error why => exact ⟨[], [], some why, journal, rfl, rfl, .inl ⟨.inl ⟨why, rfl⟩, rfl, rfl, by simp⟩⟩
  | ok message =>
    cases conditions.connection with
    | some why => exact ⟨[], [], some why, journal, rfl, rfl, .inl ⟨.inr (by simp), rfl, rfl, by simp⟩⟩
    | none =>
      dsimp only
      rw [← Conditions.outcome]
      cases conditions.outcome.failure with
      | none => exact ⟨conditions.attempts, _, none, _, rfl, rfl, .inr ⟨message, rfl, rfl, rfl, rfl, rfl⟩⟩
      | some why => exact ⟨conditions.attempts, _, some why, _, rfl, rfl, .inr ⟨message, rfl, rfl, rfl, rfl, rfl⟩⟩

theorem publish_reported :
    let p := publish service conditions context now update journal
    (∀ why, p.failure = some why → why.has .publishFailed = true) ∧
    ∀ s, p.journal.metrics.get s =
      journal.metrics.get s + if s = .published service exchange p.failure.isNone then 1 else 0 := by
  obtain ⟨attempts, offered, reason, j, hp, hj, -⟩ := publish_cases service conditions context now update journal
  rw [hp]
  refine ⟨fun why hwhy => ?_, fun s => ?_⟩
  · obtain ⟨inner, -, rfl⟩ := Option.map_eq_some_iff.mp hwhy
    simp [publishFault]
  · rw [← hj, Option.isNone_map]
    exact j.metrics.get_add _ s 1

end Reports

/-- At most three attempts are made to publish an event, in turn: none after one that was accepted, none
after the caller was seen to give up, and no fewer than that. The answer is good exactly when one was
accepted, blames the publication otherwise, and is counted once. All that is offered is the event's one
message under the key of its device. -/
theorem event_published_at_most_once (service : String) (conditions : Conditions) (context : LogContext)
    (now : Time.Instant) (update : MarkerUpdate) (journal : Journal) :
    let p := publish service conditions context now update journal
    (p.attempts = (List.range p.attempts.length).map conditions.attempt ∧ p.attempts.length ≤ 3 ∧
      p.attempts.count .accepted ≤ 1) ∧
    (∀ i, i + 1 < p.attempts.length → conditions.attempt i ≠ .accepted ∧ conditions.givenUp i = none) ∧
    (p.attempts = [] ↔ (∃ why, Message.ofUpdate context now update = .error why) ∨ conditions.connection ≠ none) ∧
    (∀ i, i + 1 = p.attempts.length → i = 2 ∨ conditions.attempt i = .accepted ∨ conditions.givenUp i ≠ none) ∧
    (p.failure = none ↔ .accepted ∈ p.attempts) ∧
    (∀ why, p.failure = some why → why.has .publishFailed = true) ∧
    (∀ s, p.journal.metrics.get s =
      journal.metrics.get s + if s = .published service exchange p.failure.isNone then 1 else 0) ∧
    p.offered.length = p.attempts.countP Attempt.offered ∧
    ∀ parcel ∈ p.offered, parcel.key = routingKey update.marker.deviceId ∧
      Message.ofUpdate context now update = .ok parcel.message := by
  intro p
  obtain ⟨hblamed, hcounted⟩ := publish_reported service conditions context now update journal
  obtain ⟨attempts, offered, reason, j, hp, -, hcases⟩ := publish_cases service conditions context now update journal
  have hattempts : p.attempts = attempts := congrArg Publication.attempts hp
  have hoffered : p.offered = offered := congrArg Publication.offered hp
  have hfailure : p.failure = none ↔ reason = none := by
    rw [congrArg Publication.failure hp, Option.map_eq_none_iff]
  rw [hattempts, hoffered, hfailure]
  obtain ⟨hno, rfl, rfl, hreason⟩ | ⟨message, hmessage, hconnection, rfl, rfl, rfl⟩ := hcases
  · exact ⟨⟨rfl, by simp, by simp⟩, by simp, iff_of_true rfl hno, by simp, iff_of_false hreason (by simp), hblamed, hcounted,
      rfl, by simp⟩
  · have htried := conditions.outcome_tried
    have hsome : conditions.attempts ≠ [] := by
      rw [← List.length_pos_iff, conditions.length_attempts]
      exact htried.made.1
    rw [conditions.length_attempts]
    refine ⟨⟨rfl, htried.made.2, conditions.count_accepted⟩, fun i hi => ?_, ?_, fun i hi => ?_,
      conditions.failure_eq_none_iff, hblamed, hcounted, ?_, fun parcel hparcel => ?_⟩
    · obtain ⟨hfailed, hstays⟩ := htried.goesOn i (Nat.zero_le i) hi
      exact ⟨fun h => hfailed (Attempt.failure?_eq_none.mpr h), hstays⟩
    · exact iff_of_false hsome (by simp [hmessage, hconnection])
    · have hstops := htried.stops
      rw [← hi, Nat.add_sub_cancel, Attempt.failure?_eq_none] at hstops
      exact hstops.imp_left fun hmade => by omega
    · rw [List.length_map, List.countP_eq_length_filter]
    · obtain ⟨_, -, rfl⟩ := List.mem_map.mp hparcel
      exact ⟨rfl, hmessage⟩

/-- The third attempt is accepted, and the second was the first to find a channel. -/
theorem event_published_at_third_attempt :
    let attempts := [Attempt.noChannel (.known .channelClosed), .refused (.other "broken pipe"), .accepted]
    let p := publish "map" ⟨none, fun i => attempts.getD i .accepted, fun _ => none⟩ {} .zero
      { marker := { deviceId := "a" } } {}
    p.attempts = attempts ∧ p.failure = none ∧ p.journal.metrics.get (.published "map" exchange true) = 1 ∧
      p.offered.length = 2 ∧ ∀ parcel ∈ p.offered, parcel.key = "bin.marker.a" := by
  intro attempts p
  have hattempts : p.attempts = attempts := by decide +kernel
  obtain ⟨-, -, -, -, hfailure, -, hcounted, hoffered, hparcels⟩ := event_published_at_most_once "map"
    ⟨none, fun i => attempts.getD i .accepted, fun _ => none⟩ {} .zero { marker := { deviceId := "a" } } {}
  have hnone : p.failure = none := hfailure.mpr (by rw [hattempts]; decide)
  refine ⟨hattempts, hnone, ?_, ?_, fun parcel hparcel => (hparcels parcel hparcel).1⟩
  · rw [hcounted, hnone]
    rfl
  · rw [hoffered, hattempts]
    rfl

end BinFleet.Queue
