import BinFleet.Proofs.Json.Value
import BinFleet.Reading

namespace BinFleet

theorem Text.sameName_congr {key name : String} (h : sameName key name = true) (other : String) :
    sameName key other = sameName name other := by
  simp only [sameName, beq_iff_eq] at h ⊢
  rw [h]

namespace Checks

theorem isValid_add (c : Checks) (key message : String) : (c.add key message).isValid = false := by
  rw [add]
  split_ifs with hany
  · obtain ⟨x, hx, -⟩ := List.any_eq_true.mp hany
    rw [isValid, List.isEmpty_eq_false_iff]
    exact List.ne_nil_of_mem hx
  · simp [isValid]

/-- Each check stands for itself. -/
@[simp] theorem isValid_check (c : Checks) (ok : Bool) (key message : String) :
    (c.check ok key message).isValid = (c.isValid && ok) := by
  cases ok with
  | true => rw [check, if_pos rfl, Bool.and_true]
  | false => rw [check, if_neg Bool.false_ne_true, isValid_add, Bool.and_false]

end Checks

namespace Reading

/-- What the checks ask of a reading. -/
structure Acceptable (r : Reading) : Prop where
  named : Text.trim r.id ≠ ""
  short : r.id.utf8ByteSize ≤ maxIdLength
  distance : Number.isFinite r.distance = true
  nonneg : (0.0 ≤ r.distance)
  lat : Number.isFinite r.lat = true
  long : Number.isFinite r.long = true
  latScale : Number.isFinite r.latScale = true ∧ (r.latScale != 0.0) = true
  longScale : Number.isFinite r.longScale = true ∧ (r.longScale != 0.0) = true

theorem checks_isValid (r : Reading) : (r.checks {}).isValid = true ↔ r.Acceptable := by
  simp only [checks, Checks.isValid_check, Bool.and_eq_true, bne_iff_ne, decide_eq_true_eq]
  constructor
  · rintro ⟨⟨⟨⟨⟨⟨⟨⟨-, h1⟩, h2⟩, h3⟩, h4⟩, h5⟩, h6⟩, h7⟩, h8⟩
    exact ⟨h1, h2, h3, h4, h5, h6, h7, h8⟩
  · rintro ⟨h1, h2, h3, h4, h5, h6, h7, h8⟩
    exact ⟨⟨⟨⟨⟨⟨⟨⟨rfl, h1⟩, h2⟩, h3⟩, h4⟩, h5⟩, h6⟩, h7⟩, h8⟩

/-- A time of arrival that was sent, or none. -/
def Timed (r : Reading) : Prop := r.receivedAt.isZero = true ∨ r.receivedAt.Regular

theorem timed_of_toInstant {old t : Time.Instant} {v : Json} (hold : old.isZero = true ∨ old.Regular)
    (h : v.toInstant old = .ok t) : t.isZero = true ∨ t.Regular := by
  unfold Json.toInstant at h
  split at h
  · exact Except.ok.inj h ▸ hold
  · split at h
    · rename_i hparse
      exact .inr (Except.ok.inj h ▸ Time.Instant.regular_of_parse? hparse)
    · cases h
  · cases h

theorem setField_congr {key name : String} (h : Text.sameName key name = true) (r : Reading) (v : Json) :
    r.setField key v = r.setField name v := by
  simp only [setField, Text.sameName_congr h]

/-- Only its own field changes the time of arrival. -/
theorem setField_received ⦃r b : Reading⦄ ⦃key : String⦄ ⦃v : Json⦄ (h : r.setField key v = .ok b) :
    (Text.sameName key "received_at" = true ∧ v.toInstant r.receivedAt = .ok b.receivedAt) ∨
      (Text.sameName key "received_at" = false ∧ b.receivedAt = r.receivedAt) := by
  have hkeep {α : Type} {x : Except Json.DecodeError α} {f : α → Reading} (hx : x.map f = .ok b)
      (hf : ∀ a, (f a).receivedAt = r.receivedAt) : b.receivedAt = r.receivedAt := by
    cases x with
    | error e => cases hx
    | ok a => exact Except.ok.inj hx ▸ hf a
  by_cases htime : Text.sameName key "received_at" = true
  · refine .inl ⟨htime, ?_⟩
    rw [setField_congr htime] at h
    change (v.toInstant r.receivedAt).map _ = .ok b at h
    cases ht : v.toInstant r.receivedAt with
    | error e =>
      rw [ht] at h
      cases h
    | ok t =>
      rw [ht] at h
      exact Except.ok.inj h ▸ rfl
  · refine .inr ⟨Bool.eq_false_iff.mpr htime, ?_⟩
    simp only [setField] at h
    iterate 8
      split at h
      · exact hkeep h fun _ => rfl
    exact Except.ok.inj h ▸ rfl

theorem setField_timed ⦃r b : Reading⦄ ⦃key : String⦄ ⦃v : Json⦄ (hr : r.Timed) (h : r.setField key v = .ok b) : b.Timed := by
  obtain ⟨-, ht⟩ | ⟨-, hkept⟩ := setField_received h
  · exact timed_of_toInstant hr ht
  · rw [Timed, hkept]
    exact hr

theorem ofJson_timed {j : Json} {r : Reading} (h : ofJson {} j = .ok r) : r.Timed :=
  Json.overFields_keeps setField_timed (.inl rfl) h

end Reading

end BinFleet
