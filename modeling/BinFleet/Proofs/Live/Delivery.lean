import BinFleet.Live.Stream
import BinFleet.Proofs.Fault
import BinFleet.Proofs.Live.Connection
import Mathlib.Data.List.Induction

namespace BinFleet.Live.Connection

/-- What can be asked of a connection. -/
inductive Request (α : Type) where
  | hold
  | send (m : α)
  | sendFirst (m : α)
  | close

def Request.message? {α : Type} : Request α → Option α
  | send m => some m
  | sendFirst m => some m
  | _ => none

/-- A request and why it was refused. -/
structure Call (α : Type) where
  request : Request α
  failure : Option Fault := none

section Calls

variable {α : Type}

namespace Call

/-- A message was accepted. -/
def isSent : Call α → Bool
  | ⟨.send _, none⟩ => true
  | _ => false

/-- A first message was accepted. -/
def isFirst : Call α → Bool
  | ⟨.sendFirst _, none⟩ => true
  | _ => false

def isHold : Call α → Bool
  | ⟨.hold, _⟩ => true
  | _ => false

theorem isSent_eq_false {x : Call α} (h : x.isFirst = true ∨ x.isHold = true) : x.isSent = false := by
  obtain ⟨request, failure⟩ := x
  cases request <;> cases failure <;> simp_all [isFirst, isHold, isSent]

end Call

def messages (calls : List (Call α)) : List α := calls.filterMap (·.request.message?)

/-- The calls since the last first message. -/
def sinceFirst (calls : List (Call α)) : List (Call α) := (calls.reverse.takeWhile fun x => !x.isFirst).reverse

/-- Of these, the ones from the first hold on. -/
def whileHeld (calls : List (Call α)) : List (Call α) := (sinceFirst calls).dropWhile fun x => !x.isHold

def isHeld (calls : List (Call α)) : Bool := !(whileHeld calls).isEmpty

/-- The calls whose messages were accepted since then. -/
def waiting (calls : List (Call α)) : List (Call α) := (whileHeld calls).filter Call.isSent

/-- The calls whose messages are written by one call that follows on others. -/
def deliveredBy (earlier : List (Call α)) (x : Call α) : List (Call α) :=
  if x.isFirst then x :: waiting earlier
  else if x.isSent && !isHeld earlier then [x]
  else []

def deliveredAfter (earlier : List (Call α)) : List (Call α) → List (Call α)
  | [] => []
  | x :: rest => deliveredBy earlier x ++ deliveredAfter (earlier ++ [x]) rest

/-- The calls whose messages are written, in the order of writing. -/
def delivered (calls : List (Call α)) : List (Call α) := deliveredAfter [] calls

variable {calls : List (Call α)} {x : Call α}

theorem delivered_concat (calls : List (Call α)) (x : Call α) :
    delivered (calls ++ [x]) = delivered calls ++ deliveredBy calls x := by
  have hafter : ∀ earlier, deliveredAfter earlier (calls ++ [x]) =
      deliveredAfter earlier calls ++ deliveredBy (earlier ++ calls) x := by
    induction calls with
    | nil => simp [deliveredAfter]
    | cons y rest ih =>
      intro earlier
      rw [List.cons_append, deliveredAfter, deliveredAfter, ih, List.append_assoc, List.append_assoc, List.singleton_append]
  exact hafter []

theorem whileHeld_first (hx : x.isFirst = true) : whileHeld (calls ++ [x]) = [] := by
  simp [whileHeld, sinceFirst, hx]

theorem whileHeld_other (hx : x.isFirst = false) :
    whileHeld (calls ++ [x]) = if isHeld calls || x.isHold then whileHeld calls ++ [x] else [] := by
  have hsince : sinceFirst (calls ++ [x]) = sinceFirst calls ++ [x] := by
    simp [sinceFirst, hx]
  rw [whileHeld, hsince, List.dropWhile_append, ← whileHeld, isHeld]
  cases hheld : (whileHeld calls).isEmpty with
  | true =>
    rw [List.isEmpty_iff] at hheld
    cases hhold : x.isHold <;> simp [hheld, hhold]
  | false => simp

theorem isHeld_concat (calls : List (Call α)) (x : Call α) :
    isHeld (calls ++ [x]) = (!x.isFirst && (isHeld calls || x.isHold)) := by
  cases hx : x.isFirst with
  | true => rw [isHeld, whileHeld_first hx]; rfl
  | false =>
    rw [isHeld, whileHeld_other hx]
    cases isHeld calls || x.isHold <;> simp

theorem waiting_of_not_held (h : isHeld calls = false) : waiting calls = [] := by
  rw [isHeld, Bool.not_eq_false', List.isEmpty_iff] at h
  rw [waiting, h]
  rfl

theorem waiting_concat (calls : List (Call α)) (x : Call α) : waiting (calls ++ [x]) =
    if x.isFirst then [] else if x.isSent && isHeld calls then waiting calls ++ [x] else waiting calls := by
  cases hx : x.isFirst with
  | true => rw [waiting, whileHeld_first hx]; rfl
  | false =>
    rw [waiting, whileHeld_other hx]
    cases hheld : isHeld calls with
    | true => cases hsent : x.isSent <;> simp [waiting, hsent]
    | false =>
      have hnone := waiting_of_not_held hheld
      cases hhold : x.isHold with
      | false => simp [hnone]
      | true =>
        have hsent := Call.isSent_eq_false (.inr hhold)
        simp [waiting, hsent]

theorem filter_isSent_waiting (calls : List (Call α)) : (waiting calls).filter Call.isSent = waiting calls := by
  simp [waiting]

/-- Messages come in the order in which they were accepted, and those that are missing wait. -/
theorem filter_isSent_delivered (calls : List (Call α)) :
    (delivered calls).filter Call.isSent ++ waiting calls = calls.filter Call.isSent := by
  induction calls using List.reverseRecOn with
  | nil => rfl
  | append_singleton calls x ih =>
    rw [delivered_concat, waiting_concat, List.filter_append, List.filter_append, ← ih, deliveredBy]
    cases hfirst : x.isFirst with
    | true => simp [Call.isSent_eq_false (.inl hfirst), filter_isSent_waiting]
    | false =>
      cases hsent : x.isSent with
      | false => simp [hsent]
      | true =>
        cases hheld : isHeld calls with
        | false => simp [hsent, waiting_of_not_held hheld]
        | true => simp [hsent]

/-- Each first message is written, and none of them twice. -/
theorem filter_isFirst_delivered (calls : List (Call α)) :
    (delivered calls).filter Call.isFirst = calls.filter Call.isFirst := by
  induction calls using List.reverseRecOn with
  | nil => rfl
  | append_singleton calls x ih =>
    have hwaiting : (waiting calls).filter Call.isFirst = [] := by
      refine List.filter_eq_nil_iff.mpr fun y hy hfirst => ?_
      exact Bool.false_ne_true ((Call.isSent_eq_false (.inl hfirst)).symm.trans (List.mem_filter.mp hy).2)
    rw [delivered_concat, List.filter_append, List.filter_append, ih, deliveredBy]
    cases hfirst : x.isFirst with
    | true => simp [hfirst, hwaiting]
    | false => cases x.isSent && !isHeld calls <;> simp [hfirst]

end Calls

variable {α : Type} [Sendable α] {c : Connection α} {m : α}

/-- The frame that a message is written in. -/
def frame (m : α) : Sent := .text ((Sendable.encode m).toOption.getD "")

/-- Writing succeeds until the connection is closed. -/
structure Working (c : Connection α) : Prop where
  attached : c.attached = true
  unbroken : c.broken = none
  encodable : ∀ m ∈ c.backlog, Encodable m

namespace Working

theorem unusable? (h : c.Working) : c.unusable? = if c.closed then some (.known .connectionClosed) else none := by
  simp [Connection.unusable?, h.attached]

/-- The four ends of a message. -/
theorem send (h : c.Working) (hm : Encodable m) :
    (c.closed = true ∧ c.send m = (c, some (sendFault (.known .connectionClosed)))) ∨
    (c.closed = false ∧ c.held = true ∧ greatestBacklog ≤ c.backlog.length ∧
      c.send m = (c, some (sendFault (.known .backlogFull)))) ∨
    (c.closed = false ∧ c.held = true ∧ c.backlog.length < greatestBacklog ∧
      c.send m = ({ c with backlog := c.backlog ++ [m] }, none)) ∨
    (c.closed = false ∧ c.held = false ∧ c.send m = ({ c with written := c.written ++ [frame m] }, none)) := by
  obtain ⟨text, htext⟩ := hm
  have hwrite : c.write m = ({ c with written := c.written ++ [frame m] }, none) := by
    simp [write, h.unbroken, htext, frame, Except.toOption]
  rw [Connection.send, h.unusable?, hwrite]
  cases c.closed with
  | true => exact .inl ⟨rfl, rfl⟩
  | false =>
    cases hheld : c.held with
    | false => exact .inr (.inr (.inr ⟨rfl, rfl, rfl⟩))
    | true =>
      by_cases hroom : c.backlog.length < greatestBacklog
      · exact .inr (.inr (.inl ⟨rfl, rfl, hroom, if_pos hroom⟩))
      · exact .inr (.inl ⟨rfl, rfl, Nat.le_of_not_lt hroom, if_neg hroom⟩)

/-- The two ends of a first message. -/
theorem sendFirst (h : c.Working) (hm : Encodable m) :
    (c.closed = true ∧ c.sendFirst m = (c, some (sendFault (.known .connectionClosed)))) ∨
    (c.closed = false ∧ c.sendFirst m =
      ({ c with held := false, backlog := [], written := c.written ++ (m :: c.backlog).map frame }, none)) := by
  obtain ⟨texts, htexts, hall⟩ := writeAll_encodable (c := { c with held := false, backlog := [] }) h.unbroken
    (List.forall_mem_cons.mpr ⟨hm, h.encodable⟩)
  have hframes : texts.map Sent.text = (m :: c.backlog).map frame := by
    have hread := congrArg (List.map fun e : Except String String => Sent.text (e.toOption.getD "")) htexts
    rw [List.map_map, List.map_map] at hread
    exact hread.symm
  rw [Connection.sendFirst, h.unusable?, hall, hframes]
  cases c.closed with
  | true => exact .inl ⟨rfl, rfl⟩
  | false => exact .inr ⟨rfl, rfl⟩

theorem send_eq_none_iff (h : c.Working) (hm : Encodable m) :
    (c.send m).2 = none ↔ c.closed = false ∧ (c.held = true → c.backlog.length < greatestBacklog) := by
  obtain ⟨hclosed, hsend⟩ | ⟨-, hheld, hfull, hsend⟩ | ⟨hopen, -, hroom, hsend⟩ | ⟨hopen, hheld, hsend⟩ := h.send hm
  · simp [hsend, hclosed]
  · simp [hsend, hheld, hfull]
  · simp [hsend, hopen, hroom]
  · simp [hsend, hopen, hheld]

theorem sendFirst_eq_none_iff (h : c.Working) (hm : Encodable m) : (c.sendFirst m).2 = none ↔ c.closed = false := by
  obtain ⟨hclosed, hfirst⟩ | ⟨hopen, hfirst⟩ := h.sendFirst hm
  · simp [hfirst, hclosed]
  · simp [hfirst, hopen]

/-- A message that is refused leaves no trace. -/
theorem send_refused (h : c.Working) (hm : Encodable m) {why : Fault} (hwhy : (c.send m).2 = some why) :
    (c.send m).1 = c ∧ (why.has .connectionClosed = true ∨ why.has .backlogFull = true) := by
  obtain ⟨-, hsend⟩ | ⟨-, -, -, hsend⟩ | ⟨-, -, -, hsend⟩ | ⟨-, -, hsend⟩ := h.send hm
  all_goals rw [hsend] at hwhy ⊢
  · obtain rfl := Option.some.inj hwhy
    exact ⟨rfl, .inl (by simp [sendFault])⟩
  · obtain rfl := Option.some.inj hwhy
    exact ⟨rfl, .inr (by simp [sendFault])⟩
  · cases hwhy
  · cases hwhy

theorem written_close (h : c.Working) :
    c.close.written = c.written ++ if c.closed then [] else [.closing] := by
  cases hclosed : c.closed <;> simp [Connection.close, h.unbroken, hclosed]

end Working

/-- What a request does, and why it is refused. -/
def ask (c : Connection α) : Request α → Connection α × Option Fault
  | .hold => (c.hold, none)
  | .send m => c.send m
  | .sendFirst m => c.sendFirst m
  | .close => (c.close, none)

/-- A connection and the calls so far, oldest first. -/
structure Traffic (α : Type) where
  connection : Connection α
  calls : List (Call α) := []

namespace Traffic

def step (t : Traffic α) (r : Request α) : Traffic α :=
  ⟨(t.connection.ask r).1, t.calls ++ [⟨r, (t.connection.ask r).2⟩]⟩

def run (t : Traffic α) (requests : List (Request α)) : Traffic α := requests.foldl step t

theorem calls_run (t : Traffic α) (requests : List (Request α)) :
    (t.run requests).calls.map (·.request) = t.calls.map (·.request) ++ requests := by
  induction requests generalizing t with
  | nil => simp [run]
  | cons r rest ih =>
    rw [run, List.foldl_cons, ← run, ih]
    simp [step]

/-- The connection is as its calls say. -/
structure Follows (t : Traffic α) : Prop where
  working : t.connection.Working
  held : t.connection.held = isHeld t.calls
  backlog : t.connection.backlog = messages (waiting t.calls)
  room : t.connection.backlog.length ≤ greatestBacklog
  closed : t.connection.closed = true ↔ Request.close ∈ t.calls.map (·.request)
  written : t.connection.written =
    (messages (delivered t.calls)).map frame ++ if t.connection.closed then [.closing] else []

namespace Follows

variable {t : Traffic α}

/-- A call that tells nothing new: neither a hold nor accepted, and the connection is closed by it only
if it was closed. -/
theorem quiet (h : t.Follows) {r : Request α} {failure : Option Fault} (hr : r ≠ .close)
    (hfirst : Call.isFirst ⟨r, failure⟩ = false) (hsent : Call.isSent ⟨r, failure⟩ = false)
    (hhold : Call.isHold ⟨r, failure⟩ = false) : Follows ⟨t.connection, t.calls ++ [⟨r, failure⟩]⟩ := by
  refine ⟨h.working, ?_, ?_, h.room, ?_, ?_⟩
  · simp [isHeld_concat, hfirst, hhold, h.held]
  · simp [waiting_concat, hfirst, hsent, h.backlog]
  · simp [h.closed, hr.symm]
  · simp [delivered_concat, deliveredBy, hfirst, hsent, h.written]

theorem hold (h : t.Follows) : (t.step .hold).Follows := by
  refine ⟨⟨h.working.attached, h.working.unbroken, h.working.encodable⟩, ?_, ?_, h.room, ?_, ?_⟩
  · simp [step, ask, isHeld_concat, Call.isFirst, Call.isHold, Connection.hold]
  · simp [step, ask, waiting_concat, Call.isFirst, Call.isSent, Connection.hold, h.backlog]
  · simp [step, ask, Connection.hold, h.closed]
  · simp [step, ask, delivered_concat, deliveredBy, Call.isFirst, Call.isSent, Connection.hold, h.written]

theorem send (h : t.Follows) {m : α} (hm : Encodable m) : (t.step (.send m)).Follows := by
  obtain ⟨-, hsend⟩ | ⟨-, -, -, hsend⟩ | ⟨-, hheld, hroom, hsend⟩ | ⟨hopen, hheld, hsend⟩ := h.working.send hm
  · rw [step, ask, hsend]
    exact h.quiet (by simp) rfl rfl rfl
  · rw [step, ask, hsend]
    exact h.quiet (by simp) rfl rfl rfl
  · have hholds := h.held.symm.trans hheld
    rw [step, ask, hsend]
    refine ⟨⟨h.working.attached, h.working.unbroken, ?_⟩, ?_, ?_, ?_, ?_, ?_⟩
    · exact List.forall_mem_append.mpr ⟨h.working.encodable, List.forall_mem_singleton.mpr hm⟩
    · simp [isHeld_concat, Call.isFirst, Call.isHold, h.held]
    · simp [waiting_concat, Call.isFirst, Call.isSent, hholds, h.backlog, messages, Request.message?]
    · rw [List.length_append]
      exact hroom
    · simp [h.closed]
    · simp [delivered_concat, deliveredBy, Call.isFirst, Call.isSent, hholds, h.written]
  · have hfree := h.held.symm.trans hheld
    rw [step, ask, hsend]
    refine ⟨⟨h.working.attached, h.working.unbroken, h.working.encodable⟩, ?_, ?_, h.room, ?_, ?_⟩
    · simp [isHeld_concat, Call.isFirst, Call.isHold, h.held]
    · simp [waiting_concat, Call.isFirst, hfree, h.backlog]
    · simp [h.closed]
    · simp [delivered_concat, deliveredBy, Call.isFirst, Call.isSent, hfree, h.written, hopen, messages, Request.message?]

theorem sendFirst (h : t.Follows) {m : α} (hm : Encodable m) : (t.step (.sendFirst m)).Follows := by
  obtain ⟨-, hfirst⟩ | ⟨hopen, hfirst⟩ := h.working.sendFirst hm
  · rw [step, ask, hfirst]
    exact h.quiet (by simp) rfl rfl rfl
  · rw [step, ask, hfirst]
    refine ⟨⟨h.working.attached, h.working.unbroken, by simp⟩, ?_, ?_, by simp, ?_, ?_⟩
    · simp [isHeld_concat, Call.isFirst]
    · simp [waiting_concat, Call.isFirst, messages]
    · simp [h.closed]
    · simp [delivered_concat, deliveredBy, Call.isFirst, h.backlog, h.written, hopen, messages, Request.message?]

theorem close (h : t.Follows) : (t.step .close).Follows := by
  have hclose : t.connection.close = { t.connection with
      closed := true
      written := (messages (delivered t.calls)).map frame ++ [.closing] } := by
    have hwritten := h.written
    cases hclosed : t.connection.closed with
    | true =>
      rw [hclosed, if_pos rfl] at hwritten
      rw [← hwritten, ← hclosed, close_of_closed hclosed]
    | false =>
      rw [hclosed, if_neg Bool.false_ne_true, List.append_nil] at hwritten
      simp [Connection.close, h.working.unbroken, hclosed, hwritten]
  rw [step, ask, hclose]
  refine ⟨⟨h.working.attached, h.working.unbroken, h.working.encodable⟩, ?_, ?_, h.room, ?_, ?_⟩
  · simp [isHeld_concat, Call.isFirst, Call.isHold, h.held]
  · simp [waiting_concat, Call.isFirst, Call.isSent, h.backlog]
  · simp
  · simp [delivered_concat, deliveredBy, Call.isFirst, Call.isSent]

theorem step (h : t.Follows) {r : Request α} (hr : ∀ m ∈ r.message?, Encodable m) : (t.step r).Follows := by
  cases r with
  | hold => exact h.hold
  | send m => exact h.send (hr m rfl)
  | sendFirst m => exact h.sendFirst (hr m rfl)
  | close => exact h.close

theorem run (h : t.Follows) {requests : List (Request α)} (hm : ∀ r ∈ requests, ∀ m ∈ r.message?, Encodable m) :
    (t.run requests).Follows := by
  induction requests generalizing t with
  | nil => exact h
  | cons r rest ih =>
    obtain ⟨hr, hrest⟩ := List.forall_mem_cons.mp hm
    exact ih (h.step hr) hrest

theorem fresh (id : Uuid) : Follows (α := α) { connection := { id } } :=
  ⟨⟨rfl, rfl, by simp⟩, rfl, rfl, by simp, by simp, rfl⟩

end Follows

theorem step_of_closed {t : Traffic α} (h : t.connection.closed = true) (r : Request α) :
    (t.step r).connection.closed = true ∧ (t.step r).connection.written = t.connection.written := by
  cases r with
  | hold => exact ⟨h, rfl⟩
  | send m =>
    have hsend : (t.step (.send m)).connection = t.connection := send_of_closed h m
    exact ⟨by rw [hsend, h], by rw [hsend]⟩
  | sendFirst m =>
    obtain ⟨why, hwhy⟩ := sendFirst_of_closed h m
    have hfirst : (t.step (.sendFirst m)).connection = t.connection := congrArg Prod.fst hwhy
    exact ⟨by rw [hfirst, h], by rw [hfirst]⟩
  | close =>
    have hclose : (t.step .close).connection = t.connection := close_of_closed h
    exact ⟨by rw [hclose, h], by rw [hclose]⟩

/-- Nothing is written any more. -/
theorem run_of_closed {t : Traffic α} (h : t.connection.closed = true) (requests : List (Request α)) :
    (t.run requests).connection.written = t.connection.written := by
  induction requests generalizing t with
  | nil => rfl
  | cons r rest ih =>
    obtain ⟨hclosed, hwritten⟩ := step_of_closed h r
    exact (ih hclosed).trans hwritten

end Traffic

/-- The peer of a connection gets exactly the messages that were accepted while it was not held, and
behind each first message those that waited for it; so messages are written in the order in which they
were accepted, each once. At most 256 wait. A message is refused exactly when the connection is closed
or 256 messages wait, which changes nothing. From the first good-bye on nothing else is written. -/
theorem messages_delivered_in_order (id : Uuid) (requests : List (Request α))
    (hm : ∀ r ∈ requests, ∀ m ∈ r.message?, Encodable m) :
    let t := Traffic.run { connection := { id } } requests
    let c := t.connection
    t.calls.map (·.request) = requests ∧
    c.written = (messages (delivered t.calls)).map frame ++ (if c.closed then [.closing] else []) ∧
    (c.closed = true ↔ Request.close ∈ requests) ∧
    (delivered t.calls).filter Call.isSent ++ waiting t.calls = t.calls.filter Call.isSent ∧
    (delivered t.calls).filter Call.isFirst = t.calls.filter Call.isFirst ∧
    c.held = isHeld t.calls ∧ c.backlog = messages (waiting t.calls) ∧ c.backlog.length ≤ 256 ∧
    (∀ m, Encodable m →
      ((c.send m).2 = none ↔ c.closed = false ∧ (c.held = true → c.backlog.length < 256)) ∧
      ((c.sendFirst m).2 = none ↔ c.closed = false) ∧
      ∀ why, (c.send m).2 = some why →
        (c.send m).1 = c ∧ (why.has .connectionClosed = true ∨ why.has .backlogFull = true)) ∧
    ∀ later, (t.run (.close :: later)).connection.written = c.written ++ if c.closed then [] else [.closing] := by
  intro t c
  have h : t.Follows := (Traffic.Follows.fresh id).run hm
  have hcalls : t.calls.map (·.request) = requests := Traffic.calls_run _ requests
  refine ⟨hcalls, h.written, hcalls ▸ h.closed, filter_isSent_delivered _, filter_isFirst_delivered _, h.held, h.backlog,
    h.room, fun m hm => ?_, fun later => ?_⟩
  · exact ⟨h.working.send_eq_none_iff hm, h.working.sendFirst_eq_none_iff hm, fun why => h.working.send_refused hm⟩
  · have hclosed : (t.step .close).connection.closed = true := close_closed c
    exact (Traffic.run_of_closed hclosed later).trans h.working.written_close

/-- A message that waits comes behind the first one; one that is sent after the good-bye does not come. -/
theorem removals_delivered_in_order :
    let removal (id : String) : Frame := .removed id .zero
    let requests := [Request.hold, .send (removal "a"), .sendFirst (removal "b"), .send (removal "c"), .close,
      .send (removal "d")]
    (∀ r ∈ requests, ∀ m ∈ r.message?, Encodable m) ∧
    (Traffic.run { connection := { id := .zero } } requests).connection.written =
      [frame (removal "b"), frame (removal "a"), frame (removal "c"), .closing] := by
  intro removal requests
  have hremoval : ∀ id, Encodable (removal id) := fun id => ⟨_, rfl⟩
  have hm : ∀ r ∈ requests, ∀ m ∈ r.message?, Encodable m := by
    simp [requests, Request.message?, hremoval]
  obtain ⟨-, hwritten, -⟩ := messages_delivered_in_order .zero requests hm
  refine ⟨hm, hwritten.trans ?_⟩
  decide +kernel

end BinFleet.Live.Connection
