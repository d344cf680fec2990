import BinFleet.Proofs.Metrics
import BinFleet.Web.Site
import Mathlib.Tactic.Common

namespace BinFleet.Web

/-- A state keeps the journal as it was recorded. -/
class LawfulJournaled (σ : Type) [Journaled σ] : Prop where
  journal_record : ∀ (f : Journal → Journal) (s : σ), Journaled.journal (Journaled.record f s) = f (Journaled.journal s)

instance : LawfulJournaled Journal := ⟨fun _ _ => rfl⟩

instance {σ : Type} : LawfulJournaled (Fleet.State σ) := ⟨fun _ _ => rfl⟩

instance {σ : Type} : LawfulJournaled (Archive.State σ) := ⟨fun _ _ => rfl⟩

def metricsOf {σ : Type} [Journaled σ] (s : σ) : Metrics := (Journaled.journal s).metrics

/-- The values that tell about requests. -/
def isAboutRequests : Series → Bool
  | .httpRequests .. | .httpInFlight .. => true
  | _ => false

/-- A status that announces another one. -/
def isInterim (code : Int) : Bool := 100 ≤ code && code ≤ 199 && code != 101

/-- The status that begins a reply: the first that is final, or 200 for a text before any. -/
def finalStatus? : List Write → Option Int
  | [] => none
  | .header .. :: rest => finalStatus? rest
  | .status code :: rest => if isInterim code then finalStatus? rest else some code
  | .body _ :: _ => some 200

/-- The status that a client gets. -/
def receivedStatus (writes : List Write) : Int := (finalStatus? writes).getD 200

theorem finalStatus?_append (before after : List Write) :
    finalStatus? (before ++ after) = (finalStatus? before).or (finalStatus? after) := by
  fun_induction finalStatus? before with
  | case1 => rfl
  | case2 name value rest ih => simpa [finalStatus?] using ih
  | case3 code rest hinterim ih => simpa [finalStatus?, hinterim] using ih
  | case4 code rest hfinal => simp [finalStatus?, hfinal]
  | case5 text rest => rfl

/-- Without announcements the client gets what the draft of the response says. -/
theorem foldl_write_status {writes : List Write} (hfinal : ∀ code, .status code ∈ writes → isInterim code = false)
    (d : Draft) :
    ((writes.foldl Draft.write d).begun.map (·.1)) = (d.begun.map (·.1)).or (finalStatus? writes) := by
  induction writes generalizing d with
  | nil => simp [finalStatus?]
  | cons w rest ih =>
    have hrest := ih (fun code hcode => hfinal code (List.mem_cons_of_mem _ hcode)) (d.write w)
    rw [List.foldl_cons, hrest]
    cases w with
    | header name value => rfl
    | status code =>
      have hcode := hfinal code List.mem_cons_self
      cases hd : d.begun <;> simp [Draft.write, Draft.commit, finalStatus?, hcode, hd]
    | body text =>
      cases hd : d.begun <;> simp [Draft.write, Draft.commit, finalStatus?, hd]

theorem status_ofWrites {writes : List Write} (hfinal : ∀ code, .status code ∈ writes → isInterim code = false) :
    (Response.ofWrites writes).status = receivedStatus writes := by
  have hbegun := foldl_write_status hfinal {}
  rw [Response.ofWrites, Draft.response, receivedStatus]
  cases hd : (writes.foldl Draft.write {}).begun with
  | none => simpa [hd] using congrArg (·.getD 200) hbegun
  | some begun => simpa [hd] using congrArg (·.getD 200) hbegun

variable {σ : Type} [Journaled σ]

/-- The status that a reply is counted under: the one that was written last. -/
def countedStatus (writes : List Write) : Int :=
  let seen := rememberedStatus writes
  if seen = 0 then 200 else seen

/-- The label of a request that is counted; none when its handler crashed or its path is no text. -/
def countedLabel? (request : Request) (r : Reply) : Option String :=
  match r.ending with
  | .crashed _ => none
  | .returned () => Text.Utf8.valid? (RouteLabel.ofPath request.path)

/-- What grows when a request got this reply. -/
def countedAs? (service : String) (request : Request) (r : Reply) : Option Series :=
  (countedLabel? request r).map fun label => .httpRequests service request.method label (countedStatus r.writes)

/-- A handler that does not count requests itself. -/
def Discreet (h : Handler σ) : Prop :=
  ∀ v s series, isAboutRequests series = true → (metricsOf (h v s).1).get series = (metricsOf s).get series

/-- Logging passes the reply on. -/
theorem logged_reply (elapsed : String) (inner : Handler σ) (v : Visit) (s : σ) :
    ∃ s', (logged elapsed inner v s).2 = (inner v s').2 := by
  simp only [logged]
  split
  · exact ⟨_, rfl⟩
  · exact ⟨_, rfl⟩

omit [Journaled σ] in
/-- An id of a request goes into its log and into a header. -/
theorem identified_passes (fresh : String) (next : Handler σ) (v : Visit) (s : σ) :
    ∃ v', v'.request = v.request ∧ (identified fresh next v s).1 = (next v' s).1 ∧
      (identified fresh next v s).2.ending = (next v' s).2.ending ∧
      finalStatus? (identified fresh next v s).2.writes = finalStatus? (next v' s).2.writes :=
  ⟨{ v with log := v.log.withRequestId (requestIdOf fresh v.request) }, rfl, rfl, rfl, rfl⟩

/-- A request gets the reply of its handler, or is turned away for its token. -/
def Answers (inner : Handler σ) (request : Request) (r : Reply) : Prop :=
  (∃ v s, r = (inner v s).2 ∧ v.request = request) ∨ ∃ message, r = ⟨refusal 401 message, .returned ()⟩

theorem authenticated_answers (authority : Option Authority) (inner : Handler σ) (v : Visit) (s : σ) :
    Answers inner v.request (authenticated authority inner v s).2 := by
  unfold authenticated
  cases authority with
  | none => exact .inl ⟨_, s, rfl, rfl⟩
  | some find =>
    dsimp only
    split_ifs
    · exact .inl ⟨_, s, rfl, rfl⟩
    · split
      · exact .inr ⟨_, rfl⟩
      · split
        · exact .inr ⟨_, rfl⟩
        · exact .inr ⟨_, rfl⟩
        · exact .inl ⟨_, s, rfl, rfl⟩

/-- The reply to a request whose count crashed ends so; any other is passed on. -/
theorem measured_reply (service : String) (inner : Handler σ) (v : Visit) (s : σ)
    (hpath : v.request.isFor "/metrics" = false) :
    let r := (inner v (measure (·.add (.httpInFlight service) 1) s)).2
    (measured service inner v s).2.writes = r.writes ∧
      ((measured service inner v s).2.ending = .returned () ↔ (countedLabel? v.request r).isSome = true) := by
  simp only [measured, hpath, Bool.false_eq_true, if_false]
  generalize inner v (measure (·.add (.httpInFlight service) 1) s) = result
  obtain ⟨s₁, ⟨writes, ending⟩⟩ := result
  cases ending with
  | crashed text => simp [countedLabel?]
  | returned value =>
    simp only [counted, countedLabel?]
    cases Text.Utf8.valid? (RouteLabel.ofPath v.request.path) <;> simp

/-- The client always gets a reply; after a crash it has the status 500 unless it was begun before. -/
theorem recovering_reply (next : Handler σ) (v : Visit) (s : σ) :
    (recovering next v s).2.ending = .returned () ∧
      finalStatus? (recovering next v s).2.writes =
        if (next v s).2.ending = .returned () then finalStatus? (next v s).2.writes
        else (finalStatus? (next v s).2.writes).or (some 500) := by
  unfold recovering
  split
  · rename_i s' writes text hcrash
    rw [hcrash]
    simp [finalStatus?_append, finalStatus?, refusal, isInterim]
  · rename_i hreturned
    generalize next v s = result at hreturned
    obtain ⟨s', ⟨writes, ending⟩⟩ := result
    cases ending with
    | crashed text => exact absurd rfl (hreturned s' writes text)
    | returned value => simp

section

variable [LawfulJournaled σ]

@[simp] theorem metricsOf_note (e : LogEntry) (s : σ) : metricsOf (note e s) = metricsOf s := by
  simp [metricsOf, note, LawfulJournaled.journal_record, Journal.log]

@[simp] theorem metricsOf_measure (f : Metrics → Metrics) (s : σ) : metricsOf (measure f s) = f (metricsOf s) := by
  simp [metricsOf, measure, LawfulJournaled.journal_record, Journal.measure]

theorem authenticated_discreet {inner : Handler σ} (hinner : Discreet inner) (authority : Option Authority) :
    Discreet (authenticated authority inner) := by
  intro v s series hseries
  unfold authenticated
  cases authority with
  | none => exact hinner _ s series hseries
  | some find =>
    dsimp only
    split_ifs
    · exact hinner _ s series hseries
    · split
      · rfl
      · split
        · rw [metricsOf_note]
        · rw [metricsOf_note]
        · exact hinner _ s series hseries

theorem logged_discreet {inner : Handler σ} (hinner : Discreet inner) (elapsed : String) :
    Discreet (logged elapsed inner) := by
  intro v s series hseries
  simp only [logged]
  split
  · rw [hinner _ _ series hseries, metricsOf_note]
  · rw [metricsOf_note, hinner _ _ series hseries, metricsOf_note]

/-- A request adds one to the series it is counted as, and is on its way no longer. -/
theorem measured_counts {inner : Handler σ} (hinner : Discreet inner) (service : String) (v : Visit) (s : σ)
    (hpath : v.request.isFor "/metrics" = false) {series : Series} (hseries : isAboutRequests series = true) :
    let r := (inner v (measure (·.add (.httpInFlight service) 1) s)).2
    (metricsOf (measured service inner v s).1).get series =
      (metricsOf s).get series + if countedAs? service v.request r = some series then 1 else 0 := by
  have hbefore := hinner v (measure (·.add (.httpInFlight service) 1) s)
  simp only [measured, hpath, Bool.false_eq_true, if_false]
  generalize inner v (measure (·.add (.httpInFlight service) 1) s) = result at hbefore ⊢
  obtain ⟨s₁, ⟨writes, ending⟩⟩ := result
  have hafter (m : Metrics) : (m.add (.httpInFlight service) (-1)).get series =
      m.get series - if series = .httpInFlight service then 1 else 0 := by
    rw [Metrics.get_add]
    split_ifs <;> omega
  have hstart := hbefore series hseries
  rw [metricsOf_measure, Metrics.get_add] at hstart
  cases ending with
  | crashed text =>
    simp only [metricsOf_measure, hafter, countedAs?, countedLabel?, Option.map_none]
    simp only [hstart]
    simp
  | returned value =>
    simp only [counted]
    cases hlabel : Text.Utf8.valid? (RouteLabel.ofPath v.request.path) with
    | none =>
      simp only [metricsOf_measure, hafter, countedAs?, countedLabel?, hlabel, Option.map_none]
      simp only [hstart]
      simp
    | some label =>
      simp only [metricsOf_measure, hafter, Metrics.inc, Metrics.get_add, countedAs?, countedLabel?, countedStatus,
        hlabel, Option.map_some, Option.some.injEq]
      simp only [hstart]
      by_cases hsame : series = .httpRequests service v.request.method label
          (if rememberedStatus writes = 0 then 200 else rememberedStatus writes)
      · simp [hsame]
      · simp [hsame, Ne.symm hsame]

theorem recovering_metrics (next : Handler σ) (v : Visit) (s : σ) :
    metricsOf (recovering next v s).1 = metricsOf (next v s).1 := by
  unfold recovering
  split
  · rename_i hcrash
    rw [metricsOf_note, hcrash]
  · rfl

/-- One request more is counted, as this series, and as many as before are on their way. -/
def CountsOnce (before after : Metrics) (counted : Series) : Prop :=
  ∀ series, isAboutRequests series = true → after.get series = before.get series + if series = counted then 1 else 0

theorem countsOnce_iff {before after : Metrics} {counted? : Option Series}
    (hgrows : ∀ series, isAboutRequests series = true →
      after.get series = before.get series + if counted? = some series then 1 else 0)
    {counted : Series} (hcounted : isAboutRequests counted = true) :
    CountsOnce before after counted ↔ counted? = some counted := by
  constructor
  · intro honce
    have hone := (hgrows counted hcounted).symm.trans (honce counted hcounted)
    by_contra hne
    rw [if_neg hne, if_pos rfl] at hone
    omega
  · intro hsame series hseries
    rw [hgrows series hseries, hsame]
    simp [eq_comm]

theorem countedLabel?_isSome (request : Request) (r : Reply) :
    (countedLabel? request r).isSome = true ↔
      r.ending = .returned () ∧ (Text.Utf8.valid? (RouteLabel.ofPath request.path)).isSome = true := by
  unfold countedLabel?
  cases r.ending <;> simp

/-- What the chain does to the metrics and to the reply that comes back to where requests are counted. -/
theorem chain_counts (c : Surroundings) (service : String) {inner : Handler σ} (hinner : Discreet inner) (v : Visit)
    (hpath : v.request.isFor "/metrics" = false) (s : σ) :
    ∃ r, Answers inner v.request r ∧
      (∀ series, isAboutRequests series = true → (metricsOf (chain c service inner v s).1).get series =
        (metricsOf s).get series + if countedAs? service v.request r = some series then 1 else 0) ∧
      (chain c service inner v s).2.ending = .returned () ∧
      finalStatus? (chain c service inner v s).2.writes =
        if (countedLabel? v.request r).isSome then finalStatus? r.writes else (finalStatus? r.writes).or (some 500) := by
  have hinside : Discreet (logged c.elapsed (authenticated c.authority inner)) :=
    logged_discreet (authenticated_discreet hinner c.authority) c.elapsed
  obtain ⟨v', hrequest, hstate, hending, hbegun⟩ := identified_passes c.freshRequestId
    (measured service (logged c.elapsed (authenticated c.authority inner))) v s
  obtain ⟨s₁, hlogged⟩ := logged_reply c.elapsed (authenticated c.authority inner) v'
    (measure (·.add (.httpInFlight service) 1) s)
  rw [← hrequest] at hpath ⊢
  have hcounts {series : Series} (hseries : isAboutRequests series = true) :=
    measured_counts hinside service v' s hpath hseries
  obtain ⟨hwrites, hcounted⟩ := measured_reply service (logged c.elapsed (authenticated c.authority inner)) v' s hpath
  simp only [hlogged] at hcounts hwrites hcounted
  obtain ⟨hreturned, hstatus⟩ := recovering_reply (identified c.freshRequestId (measured service
    (logged c.elapsed (authenticated c.authority inner)))) v s
  refine ⟨(authenticated c.authority inner v' s₁).2, authenticated_answers c.authority inner v' s₁,
    fun series hseries => ?_, hreturned, ?_⟩
  · rw [chain, recovering_metrics, hstate]
    exact hcounts hseries
  · simp only [chain, hstatus, hending, hbegun, hwrites, hcounted]

end

namespace Counting

def surroundings : Surroundings := ⟨none, [], "1", "1ms"⟩

def visit : Visit where
  request :=
    { method := "GET", target := ⟨"/p", Text.Utf8.ofString "/p", "/p", ""⟩, headers := [], body := [], remote := "10.0.0.1" }

/-- A handler that always replies the same. -/
def replying (r : Reply) : Handler Journal := fun _ s => (s, r)

theorem replying_discreet (r : Reply) : Discreet (replying r) := fun _ _ _ _ => rfl

def missing : Reply := ⟨[.header "Content-Type" "text/plain", .status 404, .body "no such bin"], .returned ()⟩

/-- What comes of a request whose handler replies so. -/
def outcome (r : Reply) : Journal × Reply := chain surroundings "svc" (replying r) visit {}

end Counting

end BinFleet.Web
