import BinFleet.Archive.Database
import BinFleet.Proofs.Fault
import BinFleet.Queue.Consumer
import BinFleet.Web.Status
import Mathlib.Data.Finset.Dedup

namespace BinFleet.Fault

/-- The faults that a layer stands around. A rejected reading stands on the cause that all of them
share. -/
def inside : Fault → List Fault
  | known _ => []
  | other _ => []
  | rejected _ => [known .invalidPayload]
  | tagged _ inner => [inner]
  | wrapped _ inner _ => [inner]
  | paired _ first _ second _ => [first, second]

/-- The fault at a place; each number of the place enters one of the faults inside. Places are ordered
as words are: a layer comes before what is inside it, and left before right. -/
def at? (f : Fault) : List Nat → Option Fault
  | [] => some f
  | i :: place => f.inside[i]?.bind fun g => g.at? place

theorem at?_cons (f : Fault) (i : Nat) (place : List Nat) :
    f.at? (i :: place) = f.inside[i]?.bind fun g => g.at? place := rfl

/-- Induction from the leaves outwards. -/
theorem inside_induction {P : Fault → Prop} (step : ∀ f, (∀ g ∈ f.inside, P g) → P f) (f : Fault) : P f := by
  -- The cause inside a rejected reading is no part of its constructor, so causes come first.
  have known (c : Cause) : P (known c) := step _ (by simp [inside])
  induction f with
  | known c => exact known c
  | other text => exact step _ (by simp [inside])
  | rejected fields => exact step _ (by simpa [inside] using known .invalidPayload)
  | tagged context inner ih => exact step _ (by simpa [inside] using ih)
  | wrapped before inner after ih => exact step _ (by simpa [inside] using ih)
  | paired before first between second after ihFirst ihSecond =>
    exact step _ (by simpa [inside] using ⟨ihFirst, ihSecond⟩)

/-- What holds at all places holds of the fault itself and at all places of the faults inside. -/
theorem forall_at?_iff (f : Fault) (P : Fault → Prop) :
    (∀ place, ∀ g ∈ f.at? place, P g) ↔ P f ∧ ∀ h ∈ f.inside, ∀ place, ∀ g ∈ h.at? place, P g := by
  constructor
  · intro hall
    refine ⟨hall [] f rfl, fun h hh place g hg => ?_⟩
    obtain ⟨i, hi⟩ := List.getElem?_of_mem hh
    apply hall (i :: place)
    rwa [at?_cons, hi]
  · rintro ⟨hself, hinside⟩ place g hg
    cases place with
    | nil =>
      obtain rfl : f = g := Option.some.inj hg
      exact hself
    | cons i place =>
      obtain ⟨h, hi, hg⟩ := Option.bind_eq_some_iff.mp hg
      exact hinside h (List.mem_of_getElem? hi) place g hg

/-- A fault lacks a cause if it is not the cause itself and the faults inside lack it. -/
theorem has_eq_false_step (f : Fault) (c : Cause) :
    f.has c = false ↔ f ≠ known c ∧ ∀ g ∈ f.inside, g.has c = false := by
  cases f with
  | known d => simp [inside, @eq_comm _ c]
  | rejected fields => simp [inside, has, causes]
  | _ => simp [inside]

theorem has_eq_false_iff (f : Fault) (c : Cause) : f.has c = false ↔ ∀ place, ∀ g ∈ f.at? place, g ≠ known c := by
  induction f using inside_induction with
  | step f ih =>
    rw [has_eq_false_step, forall_at?_iff]
    exact and_congr_right fun _ => forall₂_congr ih

/-- A fault has the causes that stand at its places. -/
theorem has_iff_at? (f : Fault) (c : Cause) : f.has c = true ↔ ∃ place, f.at? place = some (known c) := by
  have hnot := (has_eq_false_iff f c).not
  simpa using hnot

theorem mem_toFinset_causes (f : Fault) (c : Cause) : c ∈ f.causes.toFinset ↔ f.has c = true := by
  rw [List.mem_toFinset, has, List.contains_iff_mem]

section Search

variable {α : Type} {look find : Fault → Option α}

/-- A search looks at the layer itself, and then goes through the faults inside one after the other. -/
def Searches (look find : Fault → Option α) : Prop :=
  ∀ f, find f = (look f).or (f.inside.findSome? find)

/-- The first place where there is something to see. -/
structure FirstAt (f : Fault) (look : Fault → Option α) (place : List Nat) (a : α) : Prop where
  found : ∃ g ∈ f.at? place, look g = some a
  notBefore : ∀ earlier < place, ∀ g ∈ f.at? earlier, look g = none

/-- A search finds nothing only where there is nothing to see. -/
theorem Searches.eq_none_iff (h : Searches look find) (f : Fault) :
    find f = none ↔ ∀ place, ∀ g ∈ f.at? place, look g = none := by
  induction f using inside_induction with
  | step f ih =>
    rw [h f, Option.or_eq_none_iff, List.findSome?_eq_none_iff, forall_at?_iff f (look · = none)]
    exact and_congr_right fun _ => forall₂_congr ih

/-- The first place in a fault inside is the first one of the whole, if there is nothing to see at the
layer itself and to the left. -/
theorem FirstAt.enter {f g : Fault} {i : Nat} {place : List Nat} {a : α} (h : g.FirstAt look place a)
    (hself : look f = none) (hi : f.inside[i]? = some g)
    (hleft : ∀ j < i, ∀ k ∈ f.inside[j]?, ∀ other, ∀ l ∈ k.at? other, look l = none) :
    f.FirstAt look (i :: place) a := by
  have hat (other : List Nat) : f.at? (i :: other) = g.at? other := by rw [at?_cons, hi, Option.bind_some]
  refine ⟨?_, fun earlier hearlier l hl => ?_⟩
  · rw [hat]
    exact h.found
  · cases earlier with
    | nil =>
      obtain rfl : f = l := Option.some.inj hl
      exact hself
    | cons j other =>
      rcases List.cons_lt_cons_iff.mp hearlier with hj | ⟨rfl, hother⟩
      · obtain ⟨k, hk, hl⟩ := Option.bind_eq_some_iff.mp hl
        exact hleft j hj k hk other l hl
      · rw [hat] at hl
        exact h.notBefore other hother l hl

/-- What a search finds is seen at the first place. -/
theorem Searches.firstAt (h : Searches look find) {f : Fault} {a : α} (hfound : find f = some a) :
    ∃ place, f.FirstAt look place a := by
  induction f using inside_induction with
  | step f ih =>
    rw [h f, Option.or_eq_some_iff, List.findSome?_eq_some_iff] at hfound
    rcases hfound with hself | ⟨hself, left, g, right, hsplit, hg, hleft⟩
    · exact ⟨[], ⟨f, rfl, hself⟩, fun earlier hearlier => absurd hearlier (List.not_lt_nil earlier)⟩
    · -- The place is entered through the first fault inside that the search succeeds in.
      obtain ⟨place, hplace⟩ := ih g (by simp [hsplit]) hg
      refine ⟨left.length :: place, hplace.enter hself (by simp [hsplit]) fun j hj k hk => ?_⟩
      rw [hsplit, List.getElem?_append_left hj] at hk
      exact (h.eq_none_iff k).mp (hleft k (List.mem_of_getElem? hk))

end Search

/-- The log context of a tag. -/
def ownContext? : Fault → Option LogContext
  | tagged context _ => some context
  | _ => none

theorem context?_searches : Searches ownContext? context? := by
  intro f
  cases f with
  | paired before first between second after =>
    cases hfirst : first.context? <;> simp [ownContext?, context?, inside, hfirst]
  | _ => simp [ownContext?, context?, inside]

/-- A fault is reported in the log context of its first tag, or in the given one if it has no tag. -/
theorem contextOr_cases (f : Fault) (given : LogContext) :
    (∃ place, f.FirstAt ownContext? place (f.contextOr given)) ∨
      (∀ place, ∀ g ∈ f.at? place, ownContext? g = none) ∧ f.contextOr given = given := by
  cases hcontext : f.context? with
  | none =>
    right
    refine ⟨(context?_searches.eq_none_iff f).mp hcontext, ?_⟩
    rw [contextOr, hcontext, Option.getD_none]
  | some context =>
    left
    rw [contextOr, hcontext, Option.getD_some]
    exact context?_searches.firstAt hcontext

/-- The second fault is the first one with any number of layers around it, and around faults inside it. -/
inductive Dressed : Fault → Fault → Prop where
  | refl {f : Fault} : Dressed f f
  | tag {context : LogContext} {f g : Fault} (h : Dressed f g) : Dressed f (tagged context g)
  | words {before after : String} {f g : Fault} (h : Dressed f g) : Dressed f (wrapped before g after)
  | tagged {context : LogContext} {f g : Fault} (h : Dressed f g) : Dressed (tagged context f) (tagged context g)
  | wrapped {before after : String} {f g : Fault} (h : Dressed f g) :
    Dressed (wrapped before f after) (wrapped before g after)
  | paired {before between after : String} {f f' g g' : Fault} (h : Dressed f g) (h' : Dressed f' g') :
    Dressed (paired before f between f' after) (paired before g between g' after)

/-- Layers neither bring nor hide a cause. -/
theorem Dressed.has {f g : Fault} (h : Dressed f g) (c : Cause) : g.has c = f.has c := by
  induction h with
  | refl => rfl
  | tag _ ih => rw [has_tagged, ih]
  | words _ ih => rw [has_wrapped, ih]
  | tagged _ ih => rw [has_tagged, has_tagged, ih]
  | wrapped _ ih => rw [has_wrapped, has_wrapped, ih]
  | paired _ _ ih ih' => rw [has_paired, has_paired, ih, ih']

end BinFleet.Fault

namespace BinFleet.Web

/-- The code that a cause calls for. -/
def codeOf : Cause → Nat
  | .invalidPayload => 422
  | .deviceNotFound | .noReadings | .notFound => 404
  | .invalidToken | .expiredToken => 401
  | .publishFailed => 502
  | _ => 500

/-- The codes that outweigh 500, each before those that it outweighs. -/
def precedence : List Nat := [422, 404, 401, 502]

/-- The code that answers several causes at once: the first one that any of them calls for. -/
def codeFor (causes : Finset Cause) : Nat :=
  (precedence.find? fun code => ∃ c ∈ causes, codeOf c = code).getD 500

/-- A code is called for if a fault has one of the causes that call for it. -/
theorem exists_codeOf_iff (f : Fault) (code : Nat) (calling : List Cause) (h : ∀ c, codeOf c = code ↔ c ∈ calling) :
    (∃ c ∈ f.causes.toFinset, codeOf c = code) ↔ calling.any f.has = true := by
  rw [List.any_eq_true]
  constructor
  · rintro ⟨c, hc, hcode⟩
    exact ⟨c, (h c).mp hcode, (f.mem_toFinset_causes c).mp hc⟩
  · rintro ⟨c, hc, hhas⟩
    exact ⟨c, (f.mem_toFinset_causes c).mpr hhas, (h c).mpr hc⟩

/-- Nothing but the set of its causes decides which code answers a fault. -/
theorem statusOf_eq_codeFor (f : Fault) : statusOf f = codeFor f.causes.toFinset := by
  have h422 := exists_codeOf_iff f 422 [.invalidPayload] (by intro c; cases c <;> decide)
  have h404 := exists_codeOf_iff f 404 [.deviceNotFound, .noReadings, .notFound] (by intro c; cases c <;> decide)
  have h401 := exists_codeOf_iff f 401 [.invalidToken, .expiredToken] (by intro c; cases c <;> decide)
  have h502 := exists_codeOf_iff f 502 [.publishFailed] (by intro c; cases c <;> decide)
  simp only [List.any_cons, List.any_nil, Bool.or_false] at h422 h404 h401 h502
  simp only [statusOf, codeFor, precedence, List.find?_cons, List.find?_nil, h422, h404, h401, h502, ← Bool.or_assoc]
  split_ifs <;> simp [*]

end BinFleet.Web

namespace BinFleet.Fault

/-- Layers change neither the code that answers a fault nor whether it may pass. Both follow from the set
of causes at its leaves, the code by the precedence among codes. A tag leaves the text as it is, and a
fault is reported in the log context of the first tag from the outside in and from left to right, or in
the given one if there is no tag. -/
theorem layers_keep_meaning (f : Fault) :
    (∀ g, f.Dressed g → Web.statusOf g = Web.statusOf f ∧ Queue.isRecoverable g = Queue.isRecoverable f) ∧
    (∀ c, c ∈ f.causes.toFinset ↔ ∃ place, f.at? place = some (known c)) ∧
    Web.statusOf f = Web.codeFor f.causes.toFinset ∧
    (Queue.isRecoverable f = true ↔ .databaseFailed ∈ f.causes.toFinset) ∧
    (∀ context, (tagged context f).message = f.message) ∧
    ∀ given, (∃ place, f.FirstAt ownContext? place (f.contextOr given)) ∨
      (∀ place, ∀ g ∈ f.at? place, ownContext? g = none) ∧ f.contextOr given = given := by
  refine ⟨fun g h => ⟨?_, ?_⟩, fun c => ?_, Web.statusOf_eq_codeFor f, ?_, fun context => ?_, f.contextOr_cases⟩
  · simp only [Web.statusOf, h.has]
  · exact h.has .databaseFailed
  · exact (f.mem_toFinset_causes c).trans (f.has_iff_at? c)
  · exact (f.mem_toFinset_causes .databaseFailed).symm
  · rw [message]

/-- An insertion that failed for three reasons at once. -/
def failedInsertion : Fault :=
  Archive.databaseFault { deviceId := "7" } "ArchiveRepo.InsertReading"
    (paired "" (known .publishFailed) ", " (known .expiredToken) "")

/-- The insertion as it is reported, with one of the reasons tagged on its own. -/
def reportedInsertion : Fault :=
  tagged { requestId := "r1" } (during "Service.Store"
    (Archive.databaseFault { deviceId := "7" } "ArchiveRepo.InsertReading"
      (paired "" (tagged { subject := "operator" } (known .publishFailed)) ", " (known .expiredToken) "")))

/-- The expired token outweighs the failed publication, and the database may come back. -/
theorem layers_keep_meaning_of_insertion :
    failedInsertion.Dressed reportedInsertion ∧
    Web.statusOf reportedInsertion = 401 ∧ Queue.isRecoverable reportedInsertion = true ∧
    failedInsertion.contextOr { requestId := "r2" } = { action := "database_transaction_failed", deviceId := "7" } := by
  have hdressed : failedInsertion.Dressed reportedInsertion :=
    .tag (.words (.tagged (.paired .refl (.paired (.tag .refl) .refl))))
  obtain ⟨hkept, -, hcode, hrecoverable, -, -⟩ := layers_keep_meaning failedInsertion
  obtain ⟨hstatus, hpasses⟩ := hkept reportedInsertion hdressed
  refine ⟨hdressed, ?_, ?_, rfl⟩
  · rw [hstatus, hcode]
    decide
  · rw [hpasses, hrecoverable]
    decide

end BinFleet.Fault
