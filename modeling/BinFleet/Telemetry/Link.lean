import BinFleet.Telemetry.Client

namespace BinFleet.Telemetry

structure Link (η : Type) where
  client : Client η
  journal : Journal := {}
  /-- What the broker was told, latest first. -/
  told : List (Subscription η) := []

namespace Link

/-- The subscription that a call tells the broker about. -/
def subscription? {η : Type} : BrokerCall η → Option (Subscription η)
  | .subscribe s => some s
  | _ => none

/-- After an operation of the client, the broker knows what it was asked. -/
def after {η : Type} (l : Link η) (a : Asked η) : Link η :=
  ⟨a.client, a.journal, (a.calls.filterMap subscription?).reverse ++ l.told⟩

/-- Who gets the messages of a topic. -/
def receiver? {η : Type} (l : Link η) (topic : String) : Option η :=
  (l.told.find? (·.topic == topic)).map (·.handler)

/-- An operation that asks nothing of the broker. -/
def idle {η : Type} (l : Link η) : Asked η := ⟨l.client, [], l.journal, none⟩

end Link

end BinFleet.Telemetry
