import BinFleet.Live.Connection
import Mathlib.Tactic.SplitIfs

namespace BinFleet.Live

def Sent.text? : Sent → Option String
  | text s => some s
  | closing => none

/-- A message has a text. -/
def Encodable {α : Type} [Sendable α] (m : α) : Prop := ∃ text, Sendable.encode m = .ok text

namespace Connection

variable {α : Type} {c : Connection α}

/-- The texts that the peer got, oldest first. -/
def received (c : Connection α) : List String := c.written.filterMap Sent.text?

theorem unusable?_eq_none : c.unusable? = none ↔ c.attached = true ∧ c.closed = false := by
  unfold unusable?
  cases c.attached <;> cases c.closed <;> simp

theorem unusable?_of_closed (h : c.closed = true) : ∃ why, c.unusable? = some why := by
  refine Option.ne_none_iff_exists'.mp fun hn => ?_
  have hc := (unusable?_eq_none.mp hn).2
  simp [h] at hc

theorem close_received (c : Connection α) : c.close.received = c.received := by
  unfold close received
  cases c.closed <;> cases c.broken <;> simp [Sent.text?]

theorem close_closed (c : Connection α) : c.close.closed = true := by
  unfold close
  split_ifs with h <;> simp [h]

theorem close_held (c : Connection α) : c.close.held = c.held := by
  unfold close
  split_ifs <;> rfl

theorem close_backlog (c : Connection α) : c.close.backlog = c.backlog := by
  unfold close
  split_ifs <;> rfl

theorem close_of_closed (h : c.closed = true) : c.close = c := if_pos h

variable [Sendable α] {m : α}

theorem send_of_closed (h : c.closed = true) (m : α) : (c.send m).1 = c := by
  obtain ⟨why, hw⟩ := unusable?_of_closed h
  simp [send, hw]

theorem sendFirst_of_closed (h : c.closed = true) (m : α) : ∃ why, c.sendFirst m = (c, some why) := by
  obtain ⟨why, hw⟩ := unusable?_of_closed h
  exact ⟨sendFault why, by simp [sendFirst, hw]⟩

theorem writeAll_encodable (h : c.broken = none) {ms : List α} (hm : ∀ m ∈ ms, Encodable m) :
    ∃ texts : List String, ms.map Sendable.encode = texts.map .ok ∧
      c.writeAll ms = ({ c with written := c.written ++ texts.map .text }, none) := by
  induction ms generalizing c with
  | nil => exact ⟨[], rfl, by simp [writeAll]⟩
  | cons m rest ih =>
    obtain ⟨text, ht⟩ := hm m List.mem_cons_self
    have hw : c.write m = ({ c with written := c.written ++ [.text text] }, none) := by simp [write, h, ht]
    obtain ⟨texts, hts, hall⟩ := ih (c := { c with written := c.written ++ [.text text] }) h
      fun m' hm' => hm m' (List.mem_cons_of_mem _ hm')
    refine ⟨text :: texts, by simp [ht, hts], ?_⟩
    simp [writeAll, hw, hall]

/-- A working connection that has taken over `sent`. While it is held, none of it was written. -/
structure Carries (c : Connection α) (sent : List α) : Prop where
  attached : c.attached = true
  unbroken : c.broken = none
  encodable : ∀ m ∈ c.backlog, Encodable m
  drained : c.held = false → c.backlog = []
  received : c.received.map .ok = (if c.held then [] else sent).map Sendable.encode

namespace Carries

variable {sent : List α}

theorem close (h : Carries c sent) : Carries c.close sent := by
  cases hc : c.closed with
  | true => rwa [close_of_closed hc]
  | false =>
    have hr := h.received
    rw [← c.close_received] at hr
    have he : c.close = { c with closed := true, written := c.written ++ [.closing] } := by
      simp [Connection.close, hc, h.unbroken]
    rw [he] at hr ⊢
    exact ⟨h.attached, h.unbroken, h.encodable, h.drained, hr⟩

/-- A connection that is held from the start has taken over nothing. -/
theorem hold (id : Uuid) : Carries (Connection.hold { id } : Connection α) [] :=
  ⟨rfl, rfl, by simp [Connection.hold], fun _ => rfl, rfl⟩

theorem of_held (h : Carries c sent) (hh : c.held = true) (sent' : List α) : Carries c sent' :=
  ⟨h.attached, h.unbroken, h.encodable, h.drained, by simpa [hh] using h.received⟩

/-- A message is taken over after all that were taken over before, or the connection stays as it is. -/
theorem send (h : Carries c sent) (hm : Encodable m) :
    (c.closed = false ∧ (c.send m).2 = none ∧ (c.send m).1.closed = false ∧ (c.send m).1.held = c.held ∧
      ∃ sent', Carries (c.send m).1 sent' ∧ sent' ++ (c.send m).1.backlog = sent ++ c.backlog ++ [m] ∧
        (c.held = true → sent' = sent) ∧ sent <+: sent') ∨
    (c.send m).1 = c ∧ ∃ why, (c.send m).2 = some why := by
  cases hc : c.closed with
  | true =>
    obtain ⟨why, hw⟩ := unusable?_of_closed hc
    exact .inr ⟨send_of_closed hc m, sendFault why, by simp [Connection.send, hw]⟩
  | false =>
    have hu := unusable?_eq_none.mpr ⟨h.attached, hc⟩
    have hr := h.received
    cases hh : c.held with
    | true =>
      by_cases hroom : c.backlog.length < greatestBacklog
      · have hs : c.send m = ({ c with backlog := c.backlog ++ [m] }, none) := by
          simp [Connection.send, hu, hh, hroom]
        rw [hs]
        refine .inl ⟨rfl, rfl, hc, hh, sent, ⟨h.attached, h.unbroken, ?_, by simp [hh], hr⟩, by simp,
          fun _ => rfl, List.prefix_rfl⟩
        intro m' hm'
        rcases List.mem_append.mp hm' with hb | hb
        · exact h.encodable m' hb
        · exact List.mem_singleton.mp hb ▸ hm
      · exact .inr (by simp [Connection.send, hu, hh, hroom])
    | false =>
      obtain ⟨text, ht⟩ := hm
      have hb := h.drained hh
      have hs : c.send m = ({ c with written := c.written ++ [.text text] }, none) := by
        simp [Connection.send, hu, hh, write, h.unbroken, ht]
      rw [hs]
      refine .inl ⟨rfl, rfl, hc, hh, sent ++ [m],
        ⟨h.attached, h.unbroken, h.encodable, fun _ => hb, ?_⟩, by simp [hb], by simp, List.prefix_append _ _⟩
      simp only [hh, Bool.false_eq_true, if_false, Connection.received] at hr ⊢
      simp [hr, ht, Sent.text?]

/-- The first message goes out, and all that waited behind it. -/
theorem sendFirst (h : Carries c sent) (hh : c.held = true) (hc : c.closed = false) (hm : Encodable m) :
    ∃ c', c.sendFirst m = (c', none) ∧ Carries c' (m :: c.backlog) ∧ c'.held = false ∧ c'.closed = false := by
  have hu := unusable?_eq_none.mpr ⟨h.attached, hc⟩
  obtain ⟨texts, hts, hall⟩ := writeAll_encodable (c := { c with held := false, backlog := [] }) h.unbroken
    (List.forall_mem_cons.mpr ⟨hm, h.encodable⟩)
  have hs : c.sendFirst m =
      ({ c with held := false, backlog := [], written := c.written ++ texts.map .text }, none) := by
    simp [Connection.sendFirst, hu, hall]
  refine ⟨_, hs, ⟨h.attached, h.unbroken, by simp, by simp, ?_⟩, rfl, hc⟩
  have hr := h.received
  simp only [hh, if_true, List.map_nil, List.map_eq_nil_iff] at hr
  simp only [Connection.received, List.filterMap_append, Bool.false_eq_true, if_false] at hr ⊢
  rw [hr, hts]
  simp [Sent.text?, Function.comp_def]

end Carries

end Connection

end BinFleet.Live
