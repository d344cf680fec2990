import BinFleet.Proofs.Queue.Outbox
import BinFleet.Queue.Worker

namespace BinFleet.Queue

namespace Session

@[simp] theorem run_append (x : Session) (first later : List Move) :
    x.run (first ++ later) = (x.run first).run later := List.foldl_append

/-- Moves without an offer lead from one session to another. -/
def Leads (x y : Session) : Prop := ∃ schedule, schedule.filterMap Move.offered? = [] ∧ x.run schedule = y

theorem Leads.refl (x : Session) : x.Leads x := ⟨[], rfl, rfl⟩

theorem Leads.trans {x y z : Session} (hxy : x.Leads y) (hyz : y.Leads z) : x.Leads z := by
  obtain ⟨first, hfirst, rfl⟩ := hxy
  obtain ⟨later, hlater, rfl⟩ := hyz
  exact ⟨first ++ later, by simp [hfirst, hlater], run_append _ _ _⟩

theorem Leads.calls {x y : Session} (h : x.Leads y) : y.calls = x.calls := by
  obtain ⟨schedule, hquiet, rfl⟩ := h
  obtain ⟨later, hcalls, hitems⟩ := x.run_calls schedule
  rw [hquiet, List.map_eq_nil_iff] at hitems
  rw [hcalls, hitems, List.append_nil]

theorem leads_work (publish : OutboxItem → Option Fault) {x : Session} (hstage : x.stage = .choosing) :
    x.Leads { x with
      outbox := (x.outbox.work publish x.journal).1
      journal := (x.outbox.work publish x.journal).2 } := by
  cases htaken : x.outbox.take.taken with
  | none =>
    simp only [Outbox.work, htaken]
    exact Leads.refl x
  | some item =>
    refine ⟨[.take, .hand, .settle (publish item)], rfl, ?_⟩
    simp only [run, List.foldl_cons, List.foldl_nil, step, hstage, htaken, Outbox.work]

theorem leads_drain (publish : OutboxItem → Option Fault) {x : Session} (hstage : x.stage = .choosing) :
    x.Leads { x with
      outbox := (x.outbox.drain publish x.journal).1
      journal := (x.outbox.drain publish x.journal).2 } := by
  rw [Outbox.drain]
  generalize List.range x.outbox.waiting.length = turns
  induction turns generalizing x with
  | nil => exact Leads.refl x
  | cons turn rest ih =>
    refine (leads_work publish hstage).trans ?_
    exact ih hstage

/-- Where a worker stands between calls. -/
def restingStage (started running : Bool) : Stage :=
  if running then .choosing else if started then .ended else .ready

/-- The session is at the point where the worker is. -/
structure Shows (started : Bool) (x : Session) (w : Worker) : Prop where
  outbox : x.outbox = w.outbox
  journal : x.journal = w.journal
  stage : x.stage = restingStage started w.running
  running : w.running = true → started = true

variable {started : Bool} {x : Session} {w : Worker}

theorem Shows.proceed (h : x.Shows started w) (p : Publisher) : ∃ y, x.Leads y ∧ y.Shows started (w.proceed p) := by
  unfold Worker.proceed
  cases hrunning : w.running with
  | false => exact ⟨x, Leads.refl x, by simpa using h⟩
  | true =>
    have hstage : x.stage = .choosing := by rw [h.stage, hrunning]; rfl
    cases hstalls : p.stalls with
    | true =>
      refine ⟨{ x with outbox := x.outbox.take }, ⟨[.take], rfl, ?_⟩, ?_, ?_, ?_, ?_⟩
      · simp [run, step, hstage]
      · simp [h.outbox]
      · simp [h.journal]
      · simp [hstage, restingStage]
      · simp [h.running hrunning]
    | false =>
      refine ⟨_, leads_drain p.failure hstage, ?_, ?_, ?_, ?_⟩
      · simp [h.outbox, h.journal]
      · simp [h.outbox, h.journal]
      · simp [hstage, restingStage]
      · simp [h.running hrunning]

theorem Shows.close (h : x.Shows started w) : ∃ y, x.Leads y ∧ y.Shows started w.close := by
  unfold Worker.close
  cases hrunning : w.running with
  | false => exact ⟨x, Leads.refl x, by simpa using h⟩
  | true =>
    have hstage : x.stage = .choosing := by rw [h.stage, hrunning]; rfl
    have hstarted := h.running hrunning
    cases htaken : w.outbox.taken with
    | none =>
      refine ⟨_, ⟨[.close, .quit], rfl, rfl⟩, ?_, ?_, ?_, ?_⟩
      all_goals simp [run, step, hstage, h.outbox, h.journal, htaken, restingStage, hstarted]
    | some item =>
      refine ⟨_, ⟨[.close, .hand, .settle (some Queue.cancelled), .quit], rfl, rfl⟩, ?_, ?_, ?_, ?_⟩
      all_goals simp [run, step, hstage, h.outbox, h.journal, htaken, restingStage, hstarted, Outbox.hand]

theorem Shows.offer (h : x.Shows started w) (p : Publisher) (context : LogContext) (update : MarkerUpdate) :
    ∃ y, (x.step (.offer context update)).Leads y ∧ y.Shows started (w.offer p context update).1 := by
  have hoffered : (x.step (.offer context update)).Shows started { w with
      outbox := (w.outbox.offer context update w.journal).1
      journal := (w.outbox.offer context update w.journal).2.1 } := by
    refine ⟨?_, ?_, h.stage, h.running⟩
    · simp only [step, h.outbox, h.journal]
    · simp only [step, h.outbox, h.journal]
  exact hoffered.proceed p

theorem Shows.start (h : x.Shows false w) (p : Publisher) :
    ∃ y, x.Leads y ∧ y.Shows true (w.start p) := by
  have hidle : w.running = false := by
    cases hrunning : w.running with
    | false => rfl
    | true => exact (h.running hrunning).symm
  have hstage : x.stage = .ready := by rw [h.stage, hidle]; rfl
  have hstarts : x.step .start = { x with stage := .choosing } := by simp only [step, hstage]
  have hstarted : (x.step .start).Shows true { w with running := true } := by
    rw [hstarts]
    exact ⟨h.outbox, h.journal, rfl, fun _ => rfl⟩
  obtain ⟨y, hleads, hshows⟩ := hstarted.proceed p
  exact ⟨y, Leads.trans ⟨[.start], rfl, rfl⟩ hleads, hshows⟩

end Session

namespace Worker

/-- What is asked of a worker, apart from its start. -/
inductive Act where
  | offer (context : LogContext) (update : MarkerUpdate)
  | close

/-- A worker and the calls so far, oldest first. -/
def act (p : Publisher) : Worker × List Call → Act → Worker × List Call
  | (w, calls), .offer context update =>
    let (w, answer) := w.offer p context update
    (w, calls ++ [⟨⟨context, update⟩, answer⟩])
  | (w, calls), .close => (w.close, calls)

end Worker

theorem Session.Shows.acts {started : Bool} {x : Session} {w : Worker} (h : x.Shows started w) (p : Publisher)
    (acts : List Worker.Act) : ∃ schedule, let done := acts.foldl (Worker.act p) (w, x.calls)
      (x.run schedule).Shows started done.1 ∧ (x.run schedule).calls = done.2 := by
  induction acts generalizing x w with
  | nil => exact ⟨[], h, rfl⟩
  | cons a rest ih =>
    cases a with
    | offer context update =>
      obtain ⟨y, hleads, hshows⟩ := h.offer p context update
      have hcalls : y.calls = x.calls ++ [⟨⟨context, update⟩, (w.offer p context update).2⟩] := by
        rw [hleads.calls]
        simp only [Session.step, h.outbox, h.journal]
        rfl
      obtain ⟨quiet, -, rfl⟩ := hleads
      obtain ⟨schedule, hdone⟩ := ih hshows
      rw [hcalls] at hdone
      refine ⟨.offer context update :: (quiet ++ schedule), ?_⟩
      have hrun : x.run (.offer context update :: (quiet ++ schedule)) =
          ((x.step (.offer context update)).run quiet).run schedule := Session.run_append _ _ _
      rw [hrun]
      exact hdone
    | close =>
      obtain ⟨y, hleads, hshows⟩ := h.close
      have hcalls := hleads.calls
      obtain ⟨quiet, -, rfl⟩ := hleads
      obtain ⟨schedule, hdone⟩ := ih hshows
      rw [hcalls] at hdone
      refine ⟨quiet ++ schedule, ?_⟩
      rw [Session.run_append]
      exact hdone

/-- From its start to its end, a worker keeps every event it accepted, in order, and counts the others. -/
theorem Worker.acts_intact (p : Publisher) (service : String) (size : Int) (journal : Journal) (first later : List Act) :
    let before := first.foldl (act p) ({ outbox := .ofSize service size, journal }, [])
    let after := later.foldl (act p) (before.1.start p, before.2)
    after.1.published ++ after.1.outbox.waiting = accepted after.2 ∧
      after.1.outbox.size ≤ after.1.outbox.capacity ∧
      after.1.journal.metrics.get (.dropped service exchange) =
        journal.metrics.get (.dropped service exchange) + (dropped after.2).length := by
  intro before after
  have hfresh : (Session.fresh service size journal).Shows false { outbox := .ofSize service size, journal } :=
    ⟨rfl, rfl, rfl, fun h => by cases h⟩
  obtain ⟨opening, hbefore, hcalls⟩ := hfresh.acts p first
  obtain ⟨y, hleads, hstarted⟩ := hbefore.start p
  have hy := hleads.calls.trans hcalls
  obtain ⟨quiet, -, rfl⟩ := hleads
  obtain ⟨rest, hafter, hdone⟩ := hstarted.acts p later
  rw [hy] at hafter hdone
  change Session.Shows true _ after.1 at hafter
  change _ = after.2 at hdone
  have hintact := (Session.fresh_intact service size journal).run (opening ++ (quiet ++ rest))
  simp only [Session.run_append] at hintact
  refine ⟨?_, ?_, ?_⟩
  · rw [← hdone, ← hintact.kept_eq, hafter.outbox]
    rfl
  · rw [← hafter.outbox]
    exact hintact.size_le
  · rw [← hdone, ← hintact.counted, hafter.journal]

end BinFleet.Queue
