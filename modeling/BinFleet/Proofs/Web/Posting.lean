import BinFleet.Proofs.Fleet.Message
import BinFleet.Proofs.Web.Operators
import BinFleet.Proofs.Web.Readable

namespace BinFleet

namespace Web.ReadingForm

namespace Progress

variable {p : Progress} {key : String} {v : Json}

@[simp] theorem kept_keep_ne_none (p : Progress) (e : BodyError) : (p.keep e).kept ≠ none := by
  cases hkept : p.kept <;> simp [keep, hkept]

theorem setText_eq {old : String} {set : String → ReadingForm} (h : (p.setText key old v set).kept = none) :
    ∃ s, v.toText old = .ok s ∧ p.setText key old v set = { p with form := set s } := by
  unfold setText at h ⊢
  cases hv : v.toText old with
  | ok s => exact ⟨s, rfl, rfl⟩
  | error e =>
    rw [hv] at h
    exact absurd h (p.kept_keep_ne_none _)

/-- A number that is missing counts as zero in a reading. -/
theorem setNumber_eq {set : Option Float → ReadingForm} (h : (p.setNumber v set).kept = none) :
    ∃ x : Option Float, v.toNumber = .ok (x.getD 0.0) ∧ p.setNumber v set = { p with form := set x } := by
  unfold setNumber at h ⊢
  split at h
  · exact ⟨none, rfl, rfl⟩
  · split at h
    · rename_i x hx
      exact ⟨some x, hx, by simp⟩
    · exact absurd h (p.kept_keep_ne_none _)
    · exact absurd h (p.kept_keep_ne_none _)

/-- A field that the form takes over is taken over by the reading. -/
theorem setField_reading (h : (p.setField key v).kept = none) :
    p.kept = none ∧ p.form.reading.setField key v = .ok (p.setField key v).form.reading := by
  have htext {name old : String} {set : String → ReadingForm} (hname : Text.sameName key name = true)
      (hset : ∀ s, v.toText old = .ok s → p.form.reading.setField name v = .ok (set s).reading)
      (hkept : (p.setText key old v set).kept = none) :
      p.kept = none ∧ p.form.reading.setField key v = .ok (p.setText key old v set).form.reading := by
    obtain ⟨s, hs, heq⟩ := setText_eq hkept
    rw [heq] at hkept ⊢
    exact ⟨hkept, (Reading.setField_congr hname _ _).trans (hset s hs)⟩
  have hnumber {name : String} {set : Option Float → ReadingForm} (hname : Text.sameName key name = true)
      (hset : ∀ x : Option Float, v.toNumber = .ok (x.getD 0.0) →
        p.form.reading.setField name v = .ok (set x).reading)
      (hkept : (p.setNumber v set).kept = none) :
      p.kept = none ∧ p.form.reading.setField key v = .ok (p.setNumber v set).form.reading := by
    obtain ⟨x, hx, heq⟩ := setNumber_eq hkept
    rw [heq] at hkept ⊢
    exact ⟨hkept, (Reading.setField_congr hname _ _).trans (hset x hx)⟩
  revert h
  simp only [setField]
  split
  next hid => exact htext hid fun s hs => congrArg (Except.map _) hs
  split
  next hgps => exact htext hgps fun s hs => congrArg (Except.map _) hs
  split
  next hdistance => exact hnumber hdistance fun x hx => congrArg (Except.map _) hx
  split
  next hlat => exact hnumber hlat fun x hx => congrArg (Except.map _) hx
  split
  next hlatScale => exact hnumber hlatScale fun x hx => congrArg (Except.map _) hx
  split
  next hlong => exact hnumber hlong fun x hx => congrArg (Except.map _) hx
  split
  next hlongScale => exact hnumber hlongScale fun x hx => congrArg (Except.map _) hx
  -- an unknown key is a fault
  exact fun h => absurd h (p.kept_keep_ne_none _)

theorem foldl_reading {fields : List (String × Json)}
    (h : (fields.foldl (fun (p : Progress) (k, v) => p.setField (Json.unescape k) v) p).kept = none) :
    p.kept = none ∧ fields.foldlM (fun (r : Reading) (k, v) => r.setField (Json.unescape k) v) p.form.reading =
      .ok (fields.foldl (fun (p : Progress) (k, v) => p.setField (Json.unescape k) v) p).form.reading := by
  -- a fault that was kept stays, so that no field before the last one had any
  induction fields generalizing p with
  | nil => exact ⟨h, rfl⟩
  | cons kv rest ih =>
    rw [List.foldl_cons] at h
    obtain ⟨hnext, hrest⟩ := ih h
    obtain ⟨hkept, hfield⟩ := setField_reading hnext
    refine ⟨hkept, ?_⟩
    rw [List.foldlM_cons, List.foldl_cons, ← hrest]
    simp only [hfield]
    rfl

end Progress

theorem ofJson_reading {j : Json} {length : Nat} {form : ReadingForm} (h : ofJson j length = .ok form) :
    Reading.ofJson {} j = .ok form.reading := by
  cases j with
  | null =>
    obtain rfl := Except.ok.inj h
    rfl
  | object fields =>
    simp only [ofJson] at h
    split at h
    · cases h
    · rename_i hkept
      obtain rfl := Except.ok.inj h
      exact (Progress.foldl_reading hkept).2
  | bool b => cases h
  | number text => cases h
  | string body => cases h
  | array items => cases h

/-- What the form accepts is one document, and a message brings the same reading in it. -/
theorem decode?_of_read {body : List UInt8} {form : ReadingForm} (h : read body = .ok form) :
    Fleet.Service.decode? body = some form.reading := by
  simp only [read] at h
  cases hfirst : Json.readFirst (Text.Utf8.decode (body.take BodyError.limit)) with
  | fault expected rest => simp [hfirst] at h
  | incomplete =>
    simp only [hfirst] at h
    split_ifs at h
  | value j rest =>
    simp only [hfirst] at h
    generalize hread : ofJson j _ = result at h
    split_ifs at h with htouches hmore
    · cases result <;> cases h
    · cases result with
      | error e => cases h
      | ok form' =>
        obtain rfl := Except.ok.inj h
        simp only [Bool.or_eq_true, decide_eq_true_eq, Bool.not_eq_true', not_or, Nat.not_lt,
          Bool.not_eq_false] at hmore
        rw [List.take_of_length_le hmore.1] at hfirst
        refine Fleet.Service.decode?_eq_some_iff.mpr ⟨j, ?_, ofJson_reading hread⟩
        simp only [Json.read?, hfirst, if_pos hmore.2]

end Web.ReadingForm

namespace Fleet.Service

variable {σ : Type} (v : Service σ)

/-- The reading under the source that an operator's readings get. -/
def ofOperator (r : Reading) : Reading := { r with source := Reading.operatorSource }

theorem arrive_of_source (r : Reading) (source : String) (s : State σ) :
    v.arrive { r with source } s = ({ (v.arrive r s).1 with source }, (v.arrive r s).2) := by
  simp only [arrive]
  split_ifs <;> rfl

/-- The source of a reading is kept in the history and shows nowhere else. -/
theorem install_of_source (r : Reading) (source : String) (s : State σ) :
    (v.install { r with source } s).1 =
        { (v.install r s).1 with reading := { (v.install r s).1.reading with source } } ∧
      (v.install { r with source } s).2.tracker.markers = (v.install r s).2.tracker.markers := by
  simp only [install, arrive_of_source]
  generalize v.arrive r s = arrived
  obtain ⟨r, s⟩ := arrived
  simp only [applyReading, Tracker.apply, List.length_append, List.length_singleton]
  exact ⟨rfl, rfl⟩

theorem install_of_journal (r : Reading) (s : State σ) (journal : Journal) :
    (v.install r { s with journal }).1 = (v.install r s).1 ∧
      (v.install r { s with journal }).2.tracker = (v.install r s).2.tracker := by
  simp only [install, arrive]
  split_ifs <;> exact ⟨rfl, rfl⟩

theorem notifyUpdate_record_tracker (context : LogContext) (u : MarkerUpdate) (s : State σ) :
    (v.notifyUpdate context u (record context u s)).tracker = s.tracker :=
  hearAll_tracker context (.updated u) v.listeners _

/-- The same reading, once from an operator and once from the broker. -/
theorem handleMessage_of_operator {payload : List UInt8} {r : Reading} (h : decode? payload = some r)
    (hr : r.Acceptable) (context : LogContext) (s : State σ) :
    let made := v.install (ofOperator r) s
    (v.handleMessage context payload s).2 =
        .ok { made.1 with reading := { made.1.reading with source := Reading.telemetrySource } } ∧
      (v.handleMessage context payload s).1.tracker.markers = made.2.tracker.markers := by
  intro made
  obtain ⟨hupdate, hmarkers⟩ :=
    v.install_of_source (ofOperator r) Reading.telemetrySource s
  rw [handleMessage_accepted v context h hr, notifyUpdate_record_tracker]
  exact ⟨congrArg Except.ok hupdate, hmarkers⟩

end Fleet.Service

namespace Web

variable {σ : Type}

/-- A reply that is one document of JSON. -/
def Reply.document (status : Int) (text : String) : Reply :=
  ⟨[.header "Content-Type" jsonType, .status status, .body text], .returned ()⟩

/-- A reply that says something else than that a thing was created. -/
def Reply.Declines (r : Reply) : Prop := ∃ status text, r = .document status text ∧ status ≠ 201

/-- What an operator has done whose reading was answered with these fields. -/
structure Created (v : Fleet.Service σ) (body : List UInt8) (s s' : Fleet.State σ) (r : Reading)
    (fields : List (String × Json)) : Prop where
  decoded : Fleet.Service.decode? body = some r
  acceptable : r.Acceptable
  tracker : s'.tracker = (v.install (Fleet.Service.ofOperator r) s).2.tracker
  document : MapApi.resultDocument (v.install (Fleet.Service.ofOperator r) s).1 = .ok fields

theorem Created.of_journal {v : Fleet.Service σ} {body : List UInt8} {s s' t : Fleet.State σ} {journal : Journal}
    {r : Reading} {fields : List (String × Json)} (h : Created v body { s with journal } s' r fields)
    (ht : t.tracker = s'.tracker) : Created v body s t r fields := by
  obtain ⟨hupdate, htracker⟩ := v.install_of_journal (Fleet.Service.ofOperator r) s journal
  exact ⟨h.decoded, h.acceptable, ht.trans (h.tracker.trans htracker), hupdate ▸ h.document⟩

namespace MapApi

/-- A good form is put on the map. -/
theorem postReading_of_form (v : Fleet.Service σ) (visit : Visit) {form : ReadingForm}
    (hread : ReadingForm.read visit.request.body = .ok form) (hvalid : form.checks.isValid = true)
    (hr : form.reading.Acceptable) (s : Fleet.State σ) :
    let made := v.install (Fleet.Service.ofOperator form.reading) s
    (postReading v visit s).1.tracker = made.2.tracker ∧
      (∀ fields, resultDocument made.1 = .ok fields →
        (postReading v visit s).2 = ⟨jsonReply 201 fields, .returned ()⟩) ∧
      ((¬ ∃ fields, resultDocument made.1 = .ok fields) → (postReading v visit s).2.Declines) := by
  intro made
  have hsourced : Fleet.Service.sourced form.reading = Fleet.Service.ofOperator form.reading :=
    if_pos rfl
  simp only [postReading, hread, if_pos hvalid, ingestForm, v.ingest_accepted _ hr, hsourced]
  change _ ∧ (∀ fields, resultDocument made.1 = .ok fields → _) ∧ _
  cases hdocument : resultDocument made.1 with
  | ok fields =>
    refine ⟨v.notifyUpdate_record_tracker _ _ _, ?_, fun hnone => absurd ⟨fields, rfl⟩ hnone⟩
    rintro _ ⟨⟩
    rfl
  | error e =>
    refine ⟨v.notifyUpdate_record_tracker _ _ _, fun fields hok => (by cases hok), fun _ => ?_⟩
    exact ⟨500, _, rfl, by decide⟩

/-- A posted reading is turned down, or it is put on the map. -/
theorem postReading_answer (v : Fleet.Service σ) (visit : Visit) (s : Fleet.State σ) :
    (postReading v visit s).2.Declines ∨ ∃ r fields,
      Created v visit.request.body s (postReading v visit s).1 r fields ∧
        (postReading v visit s).2 = ⟨jsonReply 201 fields, .returned ()⟩ := by
  cases hread : ReadingForm.read visit.request.body with
  | error e =>
    simp only [postReading, hread]
    exact .inl ⟨400, _, rfl, by decide⟩
  | ok form =>
    by_cases hvalid : form.checks.isValid = true
    · by_cases hr : form.reading.Acceptable
      · obtain ⟨htracker, hcreated, hdeclined⟩ := postReading_of_form v visit hread hvalid hr s
        by_cases hdocument : ∃ fields,
            resultDocument (v.install (Fleet.Service.ofOperator form.reading) s).1 = .ok fields
        · obtain ⟨fields, hfields⟩ := hdocument
          exact .inr ⟨form.reading, fields, ⟨ReadingForm.decode?_of_read hread, hr, htracker, hfields⟩,
            hcreated fields hfields⟩
        · exact .inl (hdeclined hdocument)
      · simp only [postReading, hread, if_pos hvalid, ingestForm, v.ingest_rejected _ hr]
        exact .inl ⟨422, _, rfl, by decide⟩
    · simp only [postReading, hread, if_neg hvalid]
      exact .inl ⟨422, _, rfl, by decide⟩

end MapApi

theorem authenticated_answer (authority : Option Authority) (next : Handler (Fleet.State σ)) (v : Visit)
    (s : Fleet.State σ) : (authenticated authority next v s).2.Declines ∨
      ∃ v' : Visit, authenticated authority next v s = next v' s ∧ v'.request = v.request := by
  simp only [authenticated]
  split
  · exact .inr ⟨_, rfl, rfl⟩
  · split_ifs
    · exact .inr ⟨_, rfl, rfl⟩
    · split
      · exact .inl ⟨401, _, rfl, by decide⟩
      · split
        · exact .inl ⟨401, _, rfl, by decide⟩
        · exact .inl ⟨401, _, rfl, by decide⟩
        · exact .inr ⟨_, rfl, rfl⟩

theorem requiringRoles_answer (roles : List String) (next : Handler (Fleet.State σ)) (v : Visit) (s : Fleet.State σ) :
    (requiringRoles roles next v s).2.Declines ∨ requiringRoles roles next v s = next v s := by
  unfold requiringRoles
  split_ifs
  · exact .inl ⟨401, _, rfl, by decide⟩
  · exact .inl ⟨403, _, rfl, by decide⟩
  · exact .inr rfl

/-- The answer that the client gets from one document. -/
theorem Response.ofWrites_document (id : String) (status : Int) (text : String) :
    Response.ofWrites (.header requestIdHeader id :: (Reply.document status text).writes) =
      ⟨status, [(requestIdHeader, id), ("Content-Type", jsonType)], text⟩ := by
  have hresponse : Response.ofWrites (.header requestIdHeader id :: (Reply.document status text).writes) =
      ⟨status, [(requestIdHeader, id), ("Content-Type", jsonType)], "" ++ text⟩ := rfl
  rw [hresponse, String.empty_append]

/-- The request posts a reading. -/
structure Request.PostsReading (r : Request) : Prop where
  method : r.method = "POST"
  text : r.target.text ≠ "*"
  path : r.target.path = Text.Utf8.ofString "/api/readings"
  encodedPath : r.target.encodedPath = "/api/readings"

theorem Request.PostsReading.countable {r : Request} (h : r.PostsReading) :
    (Text.Utf8.valid? (RouteLabel.ofPath r.path)).isSome = true := by
  rw [Request.path, h.path]
  decide

namespace MapSite

variable (m : MapSite σ) (c : Surroundings)

/-- All routes of the site. -/
def table : List (Route (Fleet.State σ)) := commonRoutes c Mode.map.name ApiDocument.map ++ m.routes

theorem serve_posted {v : Visit} (h : v.request.PostsReading) (s : Fleet.State σ) :
    Router.serve (m.table c) v s = forOperators (MapApi.postReading m.service) v s := by
  let route : Route (Fleet.State σ) :=
    .plain (some "POST") (api ["readings"]) (forOperators (MapApi.postReading m.service))
  have hroutes : (m.table c).filter (·.method == some "POST") = [route] := rfl
  have hmatches : Router.matches? (api ["readings"]) (Router.segments "/api/readings".toList) = some [] := by
    decide
  have hfound : Router.find? (m.table c) v.request.method v.request.target.encodedPath.toList = some ⟨route, []⟩ := by
    rw [h.method, h.encodedPath]
    simp only [Router.find?, hroutes, Router.first?, List.findSome?_cons, route, Route.plain, hmatches, Option.map_some]
    rfl
  refine Router.serve_of_found h.text ?_ hfound rfl s
  rw [h.encodedPath]
  decide

theorem serve_posted_answer {v : Visit} (h : v.request.PostsReading) (s : Fleet.State σ) :
    (Router.serve (m.table c) v s).2.Declines ∨ ∃ r fields,
      Created m.service v.request.body s (Router.serve (m.table c) v s).1 r fields ∧
        (Router.serve (m.table c) v s).2 = ⟨jsonReply 201 fields, .returned ()⟩ := by
  rw [m.serve_posted c h s, forOperators]
  obtain hdeclines | hlet := requiringRoles_answer [Access.operatorRole] (MapApi.postReading m.service) v s
  · exact .inl hdeclines
  · rw [hlet]
    exact MapApi.postReading_answer m.service v s

/-- The site lets a reading through to the map, or it declines. -/
theorem handler_posted {v : Visit} (h : v.request.PostsReading) (s : Fleet.State σ) :
    ∃ reply : Reply, (m.handler c v s).2.writes =
        .header requestIdHeader (requestIdOf c.freshRequestId v.request) :: reply.writes ∧
      (reply.Declines ∨ ∃ r fields, Created m.service v.request.body s (m.handler c v s).1 r fields ∧
        reply = ⟨jsonReply 201 fields, .returned ()⟩) := by
  have hlabel := h.countable
  obtain ⟨v', journal, hrequest, htracker, hreply⟩ := chain_passes c Mode.map.name (Router.serve (m.table c)) v s
  obtain ⟨status, text, hdocument, hstatus⟩ | ⟨v'', hnext, hrequest'⟩ :=
    authenticated_answer c.authority (Router.serve (m.table c)) v' { s with journal }
  · exact ⟨_, hreply hlabel (by rw [hdocument]; rfl), .inl ⟨status, text, hdocument, hstatus⟩⟩
  · rw [hnext] at htracker hreply
    have hsame := hrequest'.trans hrequest
    obtain ⟨status, text, hdocument, hstatus⟩ | ⟨r, fields, hcreated, hdocument⟩ :=
      m.serve_posted_answer c (hsame ▸ h) { s with journal }
    · exact ⟨_, hreply hlabel (by rw [hdocument]; rfl), .inl ⟨status, text, hdocument, hstatus⟩⟩
    · rw [hsame] at hcreated
      exact ⟨_, hreply hlabel (by rw [hdocument]), .inr ⟨r, fields, hcreated.of_journal htracker, hdocument⟩⟩

/-- An operator who sends a good form is told that its reading was created. -/
theorem handler_creates {find : Authority} (hauthority : c.authority = some find) {v : Visit}
    (h : v.request.PostsReading) {token : String} {o : Access.Operator}
    (htoken : Access.Bearer.token? (v.request.header "Authorization") = some token)
    (hfind : ∀ context, find context token = .ok (some o)) (hnamed : o.isAnonymous = false)
    (hrole : o.role ∈ [Access.operatorRole]) {form : ReadingForm} (hread : ReadingForm.read v.request.body = .ok form)
    (hvalid : form.checks.isValid = true) (hr : form.reading.Acceptable) {s : Fleet.State σ}
    {fields : List (String × Json)} (hfields : MapApi.resultDocument
      (m.service.install (Fleet.Service.ofOperator form.reading) s).1 = .ok fields) :
    (Response.ofWrites (m.handler c v s).2.writes).status = 201 := by
  have hlabel := h.countable
  obtain ⟨v', journal, hrequest, -, hreply⟩ := chain_passes c Mode.map.name (Router.serve (m.table c)) v s
  rw [hauthority, authenticated_of_token find _ (hrequest ▸ htoken) (hfind v'.log),
    m.serve_posted c (hrequest ▸ h), forOperators, requiringRoles_of_role _ rfl hnamed hrole] at hreply
  let entered : Visit := { v' with log := v'.log.withSubject o.subject, operator := some o }
  have hupdate := (m.service.install_of_journal (Fleet.Service.ofOperator form.reading) s journal).1
  obtain ⟨-, hposted, -⟩ :=
    MapApi.postReading_of_form m.service entered (hrequest ▸ hread) hvalid hr { s with journal }
  have hanswer := hposted fields (hupdate ▸ hfields)
  have hwrites : (m.handler c v s).2.writes = _ := hreply hlabel (by rw [hanswer])
  rw [hwrites, hanswer]
  exact congrArg Response.status (Response.ofWrites_document _ 201 _)

end MapSite

/-- If a posted reading is created, a message of the same octets would have been accepted in the same state.
It would make the same update, apart from the source of its reading, and leave the same markers. -/
theorem posted_reading_is_a_message (m : MapSite σ) (c : Surroundings) {v : Visit} (h : v.request.PostsReading)
    (s : Fleet.State σ) (hcreated : (Response.ofWrites (m.handler c v s).2.writes).status = 201)
    (context : LogContext) :
    ∃ u fields, MapApi.resultDocument u = .ok fields ∧
      (Response.ofWrites (m.handler c v s).2.writes).body = (Json.object fields).indented ++ "\n" ∧
      (m.handler c v s).1.tracker.get? u.reading.id =
        some ⟨u.marker, (s.tracker.history? u.reading.id).getD [] ++ [u.reading]⟩ ∧
      u.reading.source = "operator" ∧
      (m.service.handleMessage context v.request.body s).2 =
        .ok { u with reading := { u.reading with source := "mqtt" } } ∧
      (m.service.handleMessage context v.request.body s).1.tracker.markers = (m.handler c v s).1.tracker.markers := by
  obtain ⟨reply, hwrites, hreply⟩ := m.handler_posted c h s
  rw [hwrites] at hcreated ⊢
  obtain ⟨status, text, rfl, hstatus⟩ | ⟨r, fields, hr, rfl⟩ := hreply
  · rw [Response.ofWrites_document] at hcreated
    exact absurd hcreated hstatus
  · obtain ⟨hupdate, hmarkers⟩ := m.service.handleMessage_of_operator hr.decoded hr.acceptable context s
    refine ⟨_, fields, hr.document, ?_, ?_, ?_, hupdate, hmarkers.trans (congrArg Tracker.markers hr.tracker.symm)⟩
    · exact congrArg Response.body (Response.ofWrites_document _ 201 _)
    · have hid : (m.service.install (Fleet.Service.ofOperator r) s).1.reading.id = r.id :=
        m.service.arrive_id _ s
      rw [hid, hr.tracker]
      exact Fleet.Service.get?_install_self (Fleet.Service.ofOperator r) s
    · exact Fleet.Service.arrive_source _ s

namespace Visiting

/-- A form with blanks around it, a name in capitals, a number in quotes, and members that are null or repeated. -/
def form : List UInt8 :=
  Text.Utf8.encode (List.flatMap String.toList
    [" \x7b\"ID\":\"a\",\"distance\":null,", "\"lat\":3130,\"lat_scale\":\"1\",", "\"long\":5260,\"long_scale\":1,",
      "\"gps_msg\":null,\"distance\":50\x7d\n"])

def posting : Visit where
  request :=
    { visit.request with
      method := "POST"
      target := ⟨"/api/readings", Text.Utf8.ofString "/api/readings", "/api/readings", ""⟩
      body := form }

theorem posting_posts : posting.request.PostsReading := ⟨rfl, by decide, rfl, rfl⟩

theorem posting_created : (Response.ofWrites (site.handler surroundings posting state).2.writes).status = 201 := by
  have hform : (ReadingForm.read form).toOption.any (fun f => f.checks.isValid && (f.reading.checks {}).isValid &&
      (MapApi.resultDocument (site.service.install (Fleet.Service.ofOperator f.reading) state).1).isOk)
      = true := by decide +kernel
  cases hread : ReadingForm.read form with
  | error e => simp [hread, Except.toOption] at hform
  | ok f =>
    simp only [hread, Except.toOption, Option.any_some, Bool.and_eq_true, Reading.checks_isValid] at hform
    obtain ⟨⟨hvalid, hr⟩, hdocument⟩ := hform
    cases hfields : MapApi.resultDocument
        (site.service.install (Fleet.Service.ofOperator f.reading) state).1 with
    | error e => simp [hfields, Except.isOk, Except.toBool] at hdocument
    | ok fields =>
      have hfind (context : LogContext) :
          (tokens.operator now context (String.ofList token)).map some = .ok (some ⟨"ann", "OPERATOR"⟩) := by
        rw [operator_of_token]
        rfl
      exact site.handler_creates surroundings rfl posting_posts token_of_visit hfind rfl (by decide) hread hvalid hr
        hfields

/-- The form would have been a good message. -/
theorem posted_form_is_a_message : posting.request.PostsReading ∧
    (Response.ofWrites (site.handler surroundings posting state).2.writes).status = 201 ∧
    ∃ u : MarkerUpdate, u.reading.source = "operator" ∧
      (site.service.handleMessage {} posting.request.body state).2 =
        .ok { u with reading := { u.reading with source := "mqtt" } } ∧
      (site.service.handleMessage {} posting.request.body state).1.tracker.markers =
        (site.handler surroundings posting state).1.tracker.markers := by
  obtain ⟨u, -, -, -, -, hsource, hupdate, hmarkers⟩ :=
    posted_reading_is_a_message site surroundings posting_posts state posting_created {}
  exact ⟨posting_posts, posting_created, u, hsource, hupdate, hmarkers⟩

end Visiting

end Web

end BinFleet
