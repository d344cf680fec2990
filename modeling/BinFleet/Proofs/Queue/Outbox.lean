import BinFleet.Proofs.Fault
import BinFleet.Proofs.Metrics
import BinFleet.Queue.Outbox

namespace BinFleet.Queue

namespace Outbox

variable (o : Outbox)

/-- The events that got into the outbox, oldest first. -/
def kept : List OutboxItem := o.handed ++ o.taken.toList ++ o.waiting

def IsFull : Prop := o.size = o.capacity

theorem kept_take : o.take.kept = o.kept := by
  unfold take
  split
  · rename_i htaken hwaiting
    simp [kept, htaken, hwaiting]
  · rfl

theorem size_take_le : o.take.size ≤ o.size := by
  unfold take
  split
  · rename_i hwaiting
    simp [size, hwaiting]
  · exact Nat.le_refl _

@[simp] theorem capacity_take : o.take.capacity = o.capacity := by
  unfold take
  split <;> rfl

@[simp] theorem service_take : o.take.service = o.service := by
  unfold take
  split <;> rfl

theorem kept_hand : o.hand.kept = o.kept := by
  unfold hand
  split
  · rename_i htaken
    simp [kept, htaken]
  · rfl

@[simp] theorem size_hand : o.hand.size = o.size := by
  unfold hand
  split <;> rfl

@[simp] theorem capacity_hand : o.hand.capacity = o.capacity := by
  unfold hand
  split <;> rfl

@[simp] theorem service_hand : o.hand.service = o.service := by
  unfold hand
  split <;> rfl

/-- What a caller is told whose event is dropped. -/
def fullFault (context : LogContext) : Fault :=
  .tagged context ((Fault.known .eventDropped).during "MarkerOutbox.OnMarkerUpdate")

theorem fullFault_has (context : LogContext) : (fullFault context).has .eventDropped = true := by
  simp [fullFault]

variable {o}

theorem offer_of_room (h : o.size < o.capacity) (context : LogContext) (update : MarkerUpdate) (j : Journal) :
    o.offer context update j = ({ o with waiting := o.waiting ++ [⟨context, update⟩] }, j, none) :=
  if_pos h

theorem offer_of_no_room (h : ¬o.size < o.capacity) (context : LogContext) (update : MarkerUpdate) (j : Journal) :
    o.offer context update j = (o, j.count (.dropped o.service exchange), some (fullFault context)) :=
  if_neg h

/-- A caller learns whether the outbox was full at that moment. -/
theorem offer_answer (h : o.size ≤ o.capacity) (context : LogContext) (update : MarkerUpdate) (j : Journal) :
    ((o.offer context update j).2.2 = none ↔ ¬o.IsFull) ∧
      ((∃ f, (o.offer context update j).2.2 = some f ∧ f.has .eventDropped = true) ↔ o.IsFull) := by
  by_cases hroom : o.size < o.capacity
  · have hnot : ¬o.IsFull := Nat.ne_of_lt hroom
    simp [offer_of_room hroom, hnot]
  · have hfull : o.IsFull := Nat.le_antisymm h (Nat.not_lt.mp hroom)
    simp [offer_of_no_room hroom, hfull, fullFault_has]

@[simp] theorem report_metrics (item : OutboxItem) (failure : Option Fault) (j : Journal) :
    (report item failure j).metrics = j.metrics := by
  cases failure <;> rfl

@[simp] theorem stop_metrics (o : Outbox) (j : Journal) : (o.stop j).metrics = j.metrics := by
  unfold stop
  split <;> rfl

end Outbox

/-- How far the worker is. -/
inductive Stage where
  /-- Nobody has started it yet. -/
  | ready
  /-- It waits for an event or for its end, or holds an event that it has just taken. -/
  | choosing
  | publishing (item : OutboxItem)
  | ended

/-- What a caller offered, and what it was told. -/
structure Call where
  item : OutboxItem
  answer : Option Fault

/-- The outbox, its worker and the calls so far, oldest first. -/
structure Session where
  outbox : Outbox
  journal : Journal
  stage : Stage := .ready
  cancelled : Bool := false
  calls : List Call := []

/-- What callers, the worker, the publisher and whoever stops the outbox can do next. -/
inductive Move where
  | offer (context : LogContext) (update : MarkerUpdate)
  | start
  | take
  | hand
  /-- The publisher is done with its event. -/
  | settle (failure : Option Fault)
  | cancel
  | close
  /-- The worker notices that it was cancelled. -/
  | quit

def Move.offered? : Move → Option OutboxItem
  | offer context update => some ⟨context, update⟩
  | _ => none

namespace Session

/-- A move that is not possible now leaves everything as it is. -/
def step (w : Session) : Move → Session
  | .offer context update =>
    let (outbox, journal, answer) := w.outbox.offer context update w.journal
    { w with outbox, journal, calls := w.calls ++ [⟨⟨context, update⟩, answer⟩] }
  | .start =>
    match w.stage with
    | .ready => { w with stage := .choosing }
    | _ => w
  | .take =>
    -- a cancelled worker may still take an event: both are ready, and either may be chosen
    match w.stage with
    | .choosing => { w with outbox := w.outbox.take }
    | _ => w
  | .hand =>
    match w.stage, w.outbox.taken with
    | .choosing, some item => { w with outbox := w.outbox.hand, stage := .publishing item }
    | _, _ => w
  | .settle failure =>
    match w.stage with
    | .publishing item => { w with journal := Outbox.report item failure w.journal, stage := .choosing }
    | _ => w
  | .cancel => { w with cancelled := true }
  | .close =>
    -- before the start there is nothing to cancel
    match w.stage with
    | .ready => w
    | _ => { w with cancelled := true }
  | .quit =>
    match w.stage, w.outbox.taken, w.cancelled with
    | .choosing, none, true => { w with journal := w.outbox.stop w.journal, stage := .ended }
    | _, _, _ => w

def run (w : Session) (schedule : List Move) : Session := schedule.foldl step w

def fresh (service : String) (size : Int) (journal : Journal) : Session :=
  ⟨.ofSize service size, journal, .ready, false, []⟩

end Session

/-- The events that their callers were not told to be lost. -/
def accepted (calls : List Call) : List OutboxItem :=
  (calls.filter fun c => c.answer.isNone).map (·.item)

def dropped (calls : List Call) : List Call :=
  calls.filter fun c => c.answer.any fun f => f.has .eventDropped

namespace Session

/-- What never changes: the place of each event, the limit, and the count of what was lost. -/
structure Intact (service : String) (capacity : Nat) (lost : Int) (w : Session) : Prop where
  service_eq : w.outbox.service = service
  capacity_eq : w.outbox.capacity = capacity
  kept_eq : w.outbox.kept = accepted w.calls
  size_le : w.outbox.size ≤ w.outbox.capacity
  counted : w.journal.metrics.get (.dropped service exchange) = lost + (dropped w.calls).length

variable {service : String} {capacity : Nat} {lost : Int} {w : Session}

theorem Intact.offer (h : w.Intact service capacity lost) (context : LogContext) (update : MarkerUpdate) :
    (w.step (.offer context update)).Intact service capacity lost := by
  by_cases hroom : w.outbox.size < w.outbox.capacity
  · simp only [step, Outbox.offer_of_room hroom]
    refine ⟨h.service_eq, h.capacity_eq, ?_, ?_, ?_⟩
    · have hkept := h.kept_eq
      simp only [Outbox.kept, accepted, List.filter_append, List.map_append] at hkept ⊢
      rw [← hkept]
      simp
    · simp only [Outbox.size, List.length_append, List.length_singleton] at hroom ⊢
      omega
    · simpa [dropped] using h.counted
  · simp only [step, Outbox.offer_of_no_room hroom]
    refine ⟨h.service_eq, h.capacity_eq, ?_, h.size_le, ?_⟩
    · simpa [accepted] using h.kept_eq
    · have hcounted := h.counted
      rw [h.service_eq]
      simp only [Journal.count, Journal.measure, Metrics.get_inc_self, hcounted, dropped, List.filter_append,
        List.length_append]
      simp [Outbox.fullFault_has]
      omega

/-- Apart from offers, a move shifts one event at most and tells no caller anything. -/
theorem step_quiet (w : Session) {m : Move} (hm : m.offered? = none) :
    (w.step m).calls = w.calls ∧ (w.step m).journal.metrics = w.journal.metrics ∧
      ((w.step m).outbox = w.outbox ∨ (w.step m).outbox = w.outbox.take ∨ (w.step m).outbox = w.outbox.hand) := by
  cases m with
  | offer context update => cases hm
  | start =>
    simp only [step]
    split <;> simp
  | take =>
    simp only [step]
    split <;> simp
  | hand =>
    simp only [step]
    split <;> simp
  | settle failure =>
    simp only [step]
    split <;> simp
  | cancel => simp [step]
  | close =>
    simp only [step]
    split <;> simp
  | quit =>
    simp only [step]
    split <;> simp

theorem Intact.quiet (h : w.Intact service capacity lost) {m : Move} (hm : m.offered? = none) :
    (w.step m).Intact service capacity lost := by
  obtain ⟨hcalls, hmetrics, houtbox⟩ := w.step_quiet hm
  have hcounted := h.counted
  rw [← hcalls, ← hmetrics] at hcounted
  rcases houtbox with ho | ho | ho
  · refine ⟨?_, ?_, ?_, ?_, hcounted⟩
    · rw [ho, h.service_eq]
    · rw [ho, h.capacity_eq]
    · rw [ho, h.kept_eq, hcalls]
    · rw [ho]
      exact h.size_le
  · refine ⟨?_, ?_, ?_, ?_, hcounted⟩
    · rw [ho, Outbox.service_take, h.service_eq]
    · rw [ho, Outbox.capacity_take, h.capacity_eq]
    · rw [ho, Outbox.kept_take, h.kept_eq, hcalls]
    · rw [ho, Outbox.capacity_take]
      exact Nat.le_trans w.outbox.size_take_le h.size_le
  · refine ⟨?_, ?_, ?_, ?_, hcounted⟩
    · rw [ho, Outbox.service_hand, h.service_eq]
    · rw [ho, Outbox.capacity_hand, h.capacity_eq]
    · rw [ho, Outbox.kept_hand, h.kept_eq, hcalls]
    · rw [ho, Outbox.size_hand, Outbox.capacity_hand]
      exact h.size_le

theorem Intact.run (h : w.Intact service capacity lost) (schedule : List Move) :
    (w.run schedule).Intact service capacity lost := by
  induction schedule generalizing w with
  | nil => exact h
  | cons m rest ih =>
    apply ih
    cases hm : m.offered? with
    | none => exact h.quiet hm
    | some item =>
      cases m with
      | offer context update => exact h.offer context update
      | _ => cases hm

theorem fresh_intact (service : String) (size : Int) (journal : Journal) :
    (fresh service size journal).Intact service (Outbox.ofSize service size).capacity
      (journal.metrics.get (.dropped service exchange)) := by
  refine ⟨rfl, rfl, rfl, Nat.zero_le _, ?_⟩
  simp [fresh, dropped]

/-- Calls are answered in the order in which they are made, and an answer stands. -/
theorem run_calls (w : Session) (schedule : List Move) :
    ∃ later, (w.run schedule).calls = w.calls ++ later ∧ later.map (·.item) = schedule.filterMap Move.offered? := by
  induction schedule generalizing w with
  | nil => exact ⟨[], by simp [run], rfl⟩
  | cons m rest ih =>
    obtain ⟨later, hcalls, hitems⟩ := ih (w.step m)
    cases hm : m.offered? with
    | none =>
      refine ⟨later, ?_, by simpa [hm] using hitems⟩
      rw [← (w.step_quiet hm).1]
      exact hcalls
    | some item =>
      cases m with
      | offer context update =>
        refine ⟨⟨⟨context, update⟩, (w.outbox.offer context update w.journal).2.2⟩ :: later, ?_, ?_⟩
        · exact hcalls.trans (List.append_assoc _ _ _)
        · rw [List.map_cons, hitems, List.filterMap_cons_some hm]
          exact congrArg (· :: _) (Option.some.inj hm)
      | _ => cases hm

end Session

/-- An accepted event is handed over, held or waiting, in order of acceptance and once; there is
never more than the limit waiting; and exactly the calls that found the outbox full are told that
their event is lost, and are counted. -/
theorem outbox_loses_only_what_it_reports (service : String) (size : Int) (journal : Journal) (schedule : List Move) :
    let start := Session.fresh service size journal
    let w := start.run schedule
    w.outbox.handed ++ w.outbox.taken.toList ++ w.outbox.waiting = accepted w.calls ∧
      (w.outbox.size ≤ w.outbox.capacity ∧ w.outbox.capacity = if size ≤ 0 then 1024 else size.toNat) ∧
      w.journal.metrics.get (.dropped service exchange) =
        journal.metrics.get (.dropped service exchange) + (dropped w.calls).length ∧
      w.calls.map (·.item) = schedule.filterMap Move.offered? ∧
      ∀ before context update after, schedule = before ++ .offer context update :: after →
        ∃ answer later, w.calls = (start.run before).calls ++ ⟨⟨context, update⟩, answer⟩ :: later ∧
          (answer = none ↔ ¬(start.run before).outbox.IsFull) ∧
          ((∃ f, answer = some f ∧ f.has .eventDropped = true) ↔ (start.run before).outbox.IsFull) := by
  intro start w
  have hfresh := Session.fresh_intact service size journal
  have hw := hfresh.run schedule
  obtain ⟨calls, hcalls, hitems⟩ := start.run_calls schedule
  refine ⟨hw.kept_eq, ⟨hw.size_le, hw.capacity_eq⟩, hw.counted, ?_, ?_⟩
  · rw [show w.calls = calls from hcalls, hitems]
  · intro before context update after hschedule
    have hbefore := hfresh.run before
    obtain ⟨later, hlater, -⟩ := ((start.run before).step (.offer context update)).run_calls after
    have hrun : w = ((start.run before).step (.offer context update)).run after := by
      rw [show w = start.run schedule from rfl, hschedule, Session.run, List.foldl_append]
      rfl
    have hsplit := (congrArg Session.calls hrun).trans hlater
    have hanswer := Outbox.offer_answer hbefore.size_le context update (start.run before).journal
    exact ⟨_, later, hsplit.trans (List.append_assoc _ _ _), hanswer⟩

end BinFleet.Queue
