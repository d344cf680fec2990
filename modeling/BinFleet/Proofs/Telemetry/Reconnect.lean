import BinFleet.Proofs.Metrics
import BinFleet.Telemetry.Link
import Mathlib.Data.List.Induction
import Mathlib.Tactic.Common

namespace BinFleet.Telemetry

/-- What happens to a client. -/
inductive LinkEvent (η : Type) where
  /-- With what the broker, or an end of the waiting, makes of it. -/
  | subscribe (context : LogContext) (s : Subscription η) (failure : Option Fault)
  | publish (topic : String) (qos : Nat) (retained : Bool) (payload : List UInt8) (failure : Option Fault)
  | connect
  | lost (why : Fault)
  | close (quiesce : Time.Span)

namespace LinkEvent

variable {η : Type}

/-- The subscription to a topic that an event asks for. -/
def subscription? (topic : String) : LinkEvent η → Option (Subscription η)
  | subscribe _ s _ => if s.topic = topic then some s else none
  | _ => none

/-- What an event tells about the connection. -/
def standing? : LinkEvent η → Option Bool
  | connect => some true
  | lost _ => some false
  | close _ => some false
  | _ => none

end LinkEvent

section Latest

variable {η α : Type}

/-- What the latest event tells that tells anything. -/
def latest? (tell : LinkEvent η → Option α) (events : List (LinkEvent η)) : Option α := events.reverse.findSome? tell

theorem latest?_concat (tell : LinkEvent η → Option α) (events : List (LinkEvent η)) (e : LinkEvent η) :
    latest? tell (events ++ [e]) = (tell e).or (latest? tell events) := by
  rw [latest?, List.reverse_append, List.reverse_singleton, List.singleton_append, List.findSome?_cons]
  cases tell e with
  | none => rfl
  | some a => rfl

end Latest

theorem Client.filter_remember {η : Type} (s : Subscription η) (all : List (Subscription η)) (topic : String) :
    (remember s all).filter (·.topic == topic) = if s.topic = topic then [s] else all.filter (·.topic == topic) := by
  rw [remember, List.filter_append, List.filter_filter]
  split_ifs with h
  · subst h
    have hnone : all.filter (fun t => t.topic == s.topic && t.topic != s.topic) = [] := by
      refine List.filter_eq_nil_iff.mpr fun t _ => ?_
      simp
    rw [hnone, List.nil_append, List.filter_cons_of_pos (by simp), List.filter_nil]
  · have hkeep : all.filter (fun t => t.topic == topic && t.topic != s.topic) = all.filter (·.topic == topic) := by
      refine List.filter_congr fun t _ => ?_
      by_cases ht : t.topic = topic
      · subst ht
        simpa using Ne.symm h
      · simp [ht]
    rw [hkeep, List.filter_cons_of_neg (by simpa using h), List.filter_nil, List.append_nil]

namespace Link

variable {η : Type}

/-- What the client does about an event. -/
def asked (l : Link η) : LinkEvent η → Asked η
  | .subscribe context s failure => l.client.subscribe context s failure l.journal
  | .publish topic qos retained payload failure => l.client.publish topic qos retained payload failure l.journal
  | .connect => l.client.connected l.journal
  | .lost why => l.client.lost why l.journal
  | .close quiesce => l.client.close quiesce l.journal

def run (l : Link η) (events : List (LinkEvent η)) : Link η := events.foldl (fun l e => l.after (l.asked e)) l

theorem run_concat (l : Link η) (events : List (LinkEvent η)) (e : LinkEvent η) :
    l.run (events ++ [e]) = (l.run events).after ((l.run events).asked e) := by
  rw [run, List.foldl_append]
  rfl

def gauge (l : Link η) : Int := l.journal.metrics.get .brokerConnected

/-- Only a subscription changes what is remembered, and only for its topic. -/
theorem asked_subscriptions (l : Link η) (e : LinkEvent η) (topic : String) :
    (l.asked e).client.subscriptions.filter (·.topic == topic) =
      (e.subscription? topic).elim (l.client.subscriptions.filter (·.topic == topic)) fun s => [s] := by
  cases e with
  | subscribe context s failure =>
    have hclient : (l.asked (.subscribe context s failure)).client.subscriptions =
        Client.remember s l.client.subscriptions := by
      cases failure <;> rfl
    rw [hclient, Client.filter_remember, LinkEvent.subscription?]
    split_ifs <;> rfl
  | publish topic' qos retained payload failure =>
    simp only [asked, Client.publish]
    split_ifs <;> rfl
  | connect => rfl
  | lost why => rfl
  | close quiesce => rfl

theorem asked_gauge (l : Link η) (e : LinkEvent η) :
    (l.asked e).journal.metrics.get .brokerConnected =
      e.standing?.elim l.gauge fun connected => if connected then 1 else 0 := by
  cases e with
  | subscribe context s failure => cases failure <;> rfl
  | publish topic qos retained payload failure =>
    simp only [asked, Client.publish]
    split_ifs <;> rfl
  | connect => exact Metrics.get_set_self _ _ _
  | lost why => exact Metrics.get_set_self _ _ _
  | close quiesce => exact Metrics.get_set_self _ _ _

/-- A client that has not been asked for anything yet. -/
def unused (isOpen : Bool) (journal : Journal) : Link η := { client := { isOpen }, journal }

/-- For each topic the latest subscription is remembered, and no other. -/
theorem run_subscriptions (isOpen : Bool) (journal : Journal) (events : List (LinkEvent η)) (topic : String) :
    ((unused isOpen journal).run events).client.subscriptions.filter (·.topic == topic) =
      (latest? (LinkEvent.subscription? topic) events).toList := by
  induction events using List.reverseRecOn with
  | nil => rfl
  | append_singleton events e ih =>
    rw [run_concat, latest?_concat]
    refine (asked_subscriptions _ e topic).trans ?_
    rw [ih]
    cases e.subscription? topic with
    | none => rfl
    | some s => rfl

theorem run_gauge (isOpen : Bool) (journal : Journal) (events : List (LinkEvent η)) :
    ((unused isOpen journal).run events).gauge =
      (latest? LinkEvent.standing? events).elim (journal.metrics.get .brokerConnected)
        fun connected => if connected then 1 else 0 := by
  induction events using List.reverseRecOn with
  | nil => rfl
  | append_singleton events e ih =>
    rw [run_concat, latest?_concat]
    refine (asked_gauge _ e).trans ?_
    rw [ih]
    cases e.standing? with
    | none => rfl
    | some connected => rfl

end Link

/-- Whatever has happened, a new connection asks for each topic once, as it was asked for last, and
for nothing else; and the gauge is one exactly while the connection stands. -/
theorem reconnect_restores_subscriptions {η : Type} (isOpen : Bool) (journal : Journal) (events : List (LinkEvent η)) :
    (∃ again : List (Subscription η),
      (((Link.unused isOpen journal).run events).asked .connect).calls = again.map .subscribe ∧
      ∀ topic, again.filter (·.topic == topic) = (latest? (LinkEvent.subscription? topic) events).toList) ∧
    (journal.metrics.get .brokerConnected = 0 →
      ((Link.unused isOpen journal).run events).gauge =
        if latest? LinkEvent.standing? events = some true then 1 else 0) := by
  refine ⟨⟨_, rfl, fun topic => Link.run_subscriptions isOpen journal events topic⟩, fun hzero => ?_⟩
  rw [Link.run_gauge, hzero]
  cases latest? LinkEvent.standing? events with
  | none => rfl
  | some connected => cases connected <;> rfl

namespace Reconnecting

/-- A topic that is subscribed to twice, the second time in vain, and one that is refused. -/
def events : List (LinkEvent String) :=
  [.connect, .subscribe {} ⟨"bins", 0, "first"⟩ none, .subscribe {} ⟨"pumps", 2, "other"⟩ (some (.other "refused")),
    .lost (.other "EOF"), .subscribe {} ⟨"bins", 1, "second"⟩ (some (.other "context canceled"))]

theorem overwritten_topic_is_restored :
    (∃ again : List (Subscription String),
      (((Link.unused true {}).run events).asked .connect).calls = again.map .subscribe ∧
      again.filter (·.topic == "bins") = [⟨"bins", 1, "second"⟩] ∧
      again.filter (·.topic == "pumps") = [⟨"pumps", 2, "other"⟩] ∧ again.filter (·.topic == "fans") = []) ∧
    ((Link.unused true {}).run events).gauge = 0 ∧ ((Link.unused true {}).run (events ++ [.connect])).gauge = 1 := by
  obtain ⟨⟨again, hcalls, hagain⟩, hgauge⟩ := reconnect_restores_subscriptions true {} events
  have hanew := (reconnect_restores_subscriptions true {} (events ++ [.connect])).2 rfl
  exact ⟨⟨again, hcalls, hagain "bins", hagain "pumps", hagain "fans"⟩, hgauge rfl, hanew⟩

end Reconnecting

end BinFleet.Telemetry
