import BinFleet.Proofs.Access.Credentials
import BinFleet.Proofs.Fleet.Change
import BinFleet.Proofs.Json.Value
import BinFleet.Web.Site

namespace BinFleet.Web

variable {σ : Type}

/-- Whoever changes the map by this handler has a property. -/
def Guarded (P : Visit → Prop) (h : Handler (Fleet.State σ)) : Prop :=
  ∀ v s, (h v s).1.tracker ≠ s.tracker → P v

/-- A handler that leaves the map as it is. -/
def Keeps (h : Handler (Fleet.State σ)) : Prop := ∀ v s, (h v s).1.tracker = s.tracker

theorem Keeps.guarded {h : Handler (Fleet.State σ)} (hk : Keeps h) (P : Visit → Prop) : Guarded P h :=
  fun v s hne => absurd (hk v s) hne

@[simp] theorem note_tracker (e : LogEntry) (s : Fleet.State σ) : (note e s).tracker = s.tracker := rfl

@[simp] theorem measure_tracker (f : Metrics → Metrics) (s : Fleet.State σ) : (measure f s).tracker = s.tracker := rfl

@[simp] theorem answer_tracker (context : LogContext) (status : Int)
    (document : Except Json.EncodeError (List (String × Json))) (s : Fleet.State σ) :
    (answer context status document s).1.tracker = s.tracker := by
  cases document <;> rfl

@[simp] theorem answerFault_tracker (context : LogContext) (complaint : String) (f : Fault) (s : Fleet.State σ) :
    (answerFault context complaint f s).1.tracker = s.tracker := rfl

theorem healthHandler_keeps (service : String) (checks : List HealthCheck) :
    Keeps (healthHandler service checks : Handler (Fleet.State σ)) := by
  intro v s
  simp only [healthHandler]
  generalize checks.mergeSort _ = checks
  induction checks generalizing s with
  | nil => rfl
  | cons c rest ih =>
    rw [List.foldl_cons, ih]
    cases c.complaint <;> rfl

theorem documentation_keeps (d : ApiDocument) : Keeps (Documentation.handler d : Handler (Fleet.State σ)) := by
  intro v s
  simp only [Documentation.handler]
  split_ifs <;> rfl

theorem commonRoutes_keep (c : Surroundings) (service : String) (d : ApiDocument) :
    ∀ r ∈ (commonRoutes c service d : List (Route (Fleet.State σ))), ∀ values, Keeps (r.handler values) := by
  intro r hr values
  simp only [commonRoutes, List.mem_cons, List.not_mem_nil, or_false] at hr
  rcases hr with rfl | rfl | rfl
  · exact healthHandler_keeps service c.health
  · exact documentation_keeps d
  · exact fun _ _ => rfl

namespace MapApi

theorem ofDevice_keeps (action complaint operation : String)
    {serve : LogContext → String → Fleet.State σ → Fleet.State σ × Reply}
    (hserve : ∀ context id s, (serve context id s).1.tracker = s.tracker) (id : List UInt8) :
    Keeps (ofDevice action complaint operation serve id) := by
  intro v s
  unfold ofDevice
  cases Text.Utf8.valid? id with
  | none => rfl
  | some id => exact hserve _ id s

theorem listNearby_keeps : Keeps (listNearby : Handler (Fleet.State σ)) := by
  intro v s
  simp only [listNearby]
  split_ifs
  · exact answer_tracker _ _ _ _
  · rfl

theorem service_device_tracker (service : Fleet.Service σ) (context : LogContext) (id : String)
    (s : Fleet.State σ) : (service.device context id s).1.tracker = s.tracker := by
  simp only [Fleet.Service.device]
  cases s.tracker.marker? id with
  | none => rfl
  | some marker =>
    cases service.resolver with
    | none => rfl
    | some resolve => dsimp only; split <;> rfl

theorem device_keeps (service : Fleet.Service σ) (id : List UInt8) : Keeps (device service id) := by
  refine ofDevice_keeps _ _ _ (fun context id s => ?_) id
  have hdevice := service_device_tracker service context id s
  rcases hd : service.device context id s with ⟨s', f | ⟨m, address⟩⟩ <;> rw [hd] at hdevice
  · exact hdevice
  · exact (answer_tracker _ _ _ _).trans hdevice

theorem history_keeps (id : List UInt8) : Keeps (history id : Handler (Fleet.State σ)) := by
  refine ofDevice_keeps _ _ _ (fun context id s => ?_) id
  cases Fleet.Service.history context id s with
  | error f => rfl
  | ok readings => exact answer_tracker _ _ _ _

theorem historyTable_keeps (id : List UInt8) : Keeps (historyTable id : Handler (Fleet.State σ)) := by
  refine ofDevice_keeps _ _ _ (fun context id s => ?_) id
  cases Fleet.Service.history context id s with
  | error f => rfl
  | ok readings => rcases hw : tableWrites id readings with ⟨writes, _ | why⟩ <;> simp only [hw, note_tracker]

theorem join_tracker (stream : Live.Stream σ) (context : LogContext) (id : Uuid) (s : Fleet.State σ) :
    (stream.join context id s).tracker = s.tracker := by
  simp only [Live.Stream.join]
  split <;> rfl

theorem liveMarkers_keeps (stream : Live.Stream σ) (takeOver : σ → Except String Uuid) :
    Keeps (liveMarkers stream takeOver) := by
  intro v s
  simp only [liveMarkers]
  cases Upgrade.refusal? v.request with
  | some r => rfl
  | none =>
    cases takeOver s.world with
    | error why => rfl
    | ok id => exact join_tracker stream _ id s

end MapApi

namespace Router

theorem first?_mem {routes : List (Route σ)} {path : List (List UInt8)} {m : Match σ}
    (h : first? routes path = some m) : m.route ∈ routes := by
  obtain ⟨r, hr, hm⟩ := List.exists_of_findSome?_eq_some h
  obtain ⟨values, -, rfl⟩ := Option.map_eq_some_iff.mp hm
  exact hr

theorem find?_first {routes : List (Route σ)} {method : String} {path : List Char} {m : Match σ}
    (h : find? routes method path = some m) :
    ∃ method, first? (routes.filter fun r => r.method == method) (segments path) = some m := by
  simp only [find?, Option.orElse_eq_orElse, Option.orElse_eq_or, Option.or_eq_some_iff] at h
  rcases h with h | ⟨-, h | ⟨-, h⟩⟩
  · exact ⟨_, h⟩
  · split_ifs at h
    exact ⟨_, h⟩
  · exact ⟨_, h⟩

theorem find?_mem {routes : List (Route σ)} {method : String} {path : List Char} {m : Match σ}
    (h : find? routes method path = some m) : m.route ∈ routes := by
  obtain ⟨_, hm⟩ := find?_first h
  exact List.mem_of_mem_filter (first?_mem hm)

/-- A request that no route takes leaves the state as it is. -/
theorem serve_eq (routes : List (Route σ)) (v : Visit) (s : σ) :
    (serve routes v s).1 = s ∨ ∃ r ∈ routes, ∃ values, serve routes v s = r.handler values v s := by
  simp only [serve]
  generalize (if v.request.method = "CONNECT" then _ else _) = path
  split_ifs
  · exact .inl rfl
  · exact .inl rfl
  · exact .inl rfl
  · split
    · rename_i m hfound
      exact .inr ⟨m.route, find?_mem hfound, m.values, rfl⟩
    · split <;> exact .inl rfl

theorem serve_guarded {P : Visit → Prop} {routes : List (Route (Fleet.State σ))}
    (h : ∀ r ∈ routes, ∀ values, Guarded P (r.handler values)) : Guarded P (serve routes) := by
  intro v s hne
  rcases serve_eq routes v s with hs | ⟨r, hr, values, hs⟩
  · exact absurd (congrArg Fleet.State.tracker hs) hne
  · exact h r hr values v s (hs ▸ hne)

end Router

/-- The visitor has shown a token with the role. -/
def Visit.HasRole (role : String) (v : Visit) : Prop :=
  ∃ o, v.operator = some o ∧ o.isAnonymous = false ∧ o.role = role

theorem requiringRoles_guarded (role : String) (h : Handler (Fleet.State σ)) :
    Guarded (Visit.HasRole role) (requiringRoles [role] h) := by
  intro v s hne
  unfold requiringRoles at hne
  split_ifs at hne with hanonymous hrole
  · exact absurd rfl hne
  · exact absurd rfl hne
  · cases ho : v.operator with
    | none => simp [Visit.isAnonymous, ho] at hanonymous
    | some o =>
      refine ⟨o, ho, ?_, ?_⟩
      · simpa [Visit.isAnonymous, ho] using hanonymous
      · simpa [ho] using hrole

theorem MapSite.routes_guarded (m : MapSite σ) :
    ∀ r ∈ m.routes, ∀ values, Guarded (Visit.HasRole "OPERATOR") (r.handler values) := by
  intro r hr values
  simp only [MapSite.routes, List.mem_cons, List.not_mem_nil, or_false] at hr
  rcases hr with rfl | rfl | rfl | rfl | rfl | rfl | rfl | rfl | rfl | rfl
  · exact Keeps.guarded (fun _ _ => rfl) _
  · exact (MapApi.liveMarkers_keeps m.stream m.takeOver).guarded _
  · exact Keeps.guarded (fun _ _ => answer_tracker _ _ _ _) _
  · exact MapApi.listNearby_keeps.guarded _
  · exact Keeps.guarded (fun _ _ => answer_tracker _ _ _ _) _
  · exact (MapApi.device_keeps m.service _).guarded _
  · exact (MapApi.history_keeps _).guarded _
  · exact (MapApi.historyTable_keeps _).guarded _
  · exact requiringRoles_guarded _ _
  · exact requiringRoles_guarded _ _

theorem recovering_tracker (next : Handler (Fleet.State σ)) (v : Visit) (s : Fleet.State σ) :
    (recovering next v s).1.tracker = (next v s).1.tracker := by
  unfold recovering
  split
  · rename_i hcrash
    rw [hcrash]
    rfl
  · rfl

theorem recovering_returned {next : Handler (Fleet.State σ)} {v : Visit} {s : Fleet.State σ}
    (h : (next v s).2.ending = .returned ()) : recovering next v s = next v s := by
  unfold recovering
  split
  · rename_i hcrash
    rw [hcrash] at h
    cases h
  · rfl

theorem logged_passes (elapsed : String) (next : Handler (Fleet.State σ)) (v : Visit) (s : Fleet.State σ) :
    ∃ journal, (logged elapsed next v s).1.tracker = (next v { s with journal }).1.tracker ∧
      (logged elapsed next v s).2 = (next v { s with journal }).2 := by
  simp only [logged]
  generalize hs : note _ s = started
  have hstate : { s with journal := started.journal } = started := hs ▸ rfl
  refine ⟨started.journal, ?_⟩
  rw [hstate]
  split <;> exact ⟨rfl, rfl⟩

/-- The reply is as it was, unless it cannot be counted. -/
theorem measured_passes (service : String) (next : Handler (Fleet.State σ)) (v : Visit) (s : Fleet.State σ) :
    ∃ journal, (measured service next v s).1.tracker = (next v { s with journal }).1.tracker ∧
      ((Text.Utf8.valid? (RouteLabel.ofPath v.request.path)).isSome = true →
        (measured service next v s).2 = (next v { s with journal }).2) := by
  simp only [measured]
  split_ifs
  · exact ⟨s.journal, rfl, fun _ => rfl⟩
  · generalize hs : measure (·.add (.httpInFlight service) 1) s = counting
    have hstate : { s with journal := counting.journal } = counting := hs ▸ rfl
    refine ⟨counting.journal, ?_⟩
    rw [hstate]
    simp only [measure_tracker, counted]
    split
    · exact ⟨rfl, fun _ => rfl⟩
    · split
      · rename_i hlabel
        exact ⟨rfl, fun hsome => by simp [hlabel] at hsome⟩
      · exact ⟨rfl, fun _ => rfl⟩

/-- What is wrapped around the check of a token leaves the map and the world to it and keeps the request. -/
theorem chain_passes (c : Surroundings) (service : String) (inner : Handler (Fleet.State σ)) (v : Visit)
    (s : Fleet.State σ) :
    ∃ (v' : Visit) (journal : Journal), v'.request = v.request ∧
      (chain c service inner v s).1.tracker = (authenticated c.authority inner v' { s with journal }).1.tracker ∧
      ((Text.Utf8.valid? (RouteLabel.ofPath v.request.path)).isSome = true →
        (authenticated c.authority inner v' { s with journal }).2.ending = .returned () →
        (chain c service inner v s).2.writes = .header requestIdHeader (requestIdOf c.freshRequestId v.request) ::
          (authenticated c.authority inner v' { s with journal }).2.writes) := by
  let v' : Visit := { v with log := v.log.withRequestId (requestIdOf c.freshRequestId v.request) }
  obtain ⟨counting, hmeasured, hreply⟩ :=
    measured_passes service (logged c.elapsed (authenticated c.authority inner)) v' s
  obtain ⟨started, hlogged, hlast⟩ :=
    logged_passes c.elapsed (authenticated c.authority inner) v' { s with journal := counting }
  refine ⟨v', started, rfl, ?_, fun hlabel hreturned => ?_⟩
  · rw [← hlogged, ← hmeasured]
    exact recovering_tracker _ v s
  · have hcounted := (hreply hlabel).trans hlast
    have hends : (identified c.freshRequestId (measured service (logged c.elapsed
        (authenticated c.authority inner))) v s).2.ending = .returned () :=
      (congrArg Reply.ending hcounted).trans hreturned
    rw [chain, recovering_returned hends]
    exact congrArg (List.cons _) (congrArg Reply.writes hcounted)

/-- What is wrapped around the check of a token changes nothing on the map and keeps the request. -/
theorem chain_tracker (c : Surroundings) (service : String) (inner : Handler (Fleet.State σ)) (v : Visit)
    (s : Fleet.State σ) :
    ∃ (v' : Visit) (s' : Fleet.State σ), v'.request = v.request ∧ s'.tracker = s.tracker ∧
      (chain c service inner v s).1.tracker = (authenticated c.authority inner v' s').1.tracker := by
  obtain ⟨v', journal, hrequest, htracker, -⟩ := chain_passes c service inner v s
  exact ⟨v', { s with journal }, hrequest, rfl, htracker⟩

/-- A header with a token that names an operator at an instant. -/
def Request.ShowsOperator (secret : String) (now : Time.Instant) (r : Request) : Prop :=
  ∃ scheme token : List Char, (r.header "Authorization").toList = scheme ++ ' ' :: token ∧
    ' ' ∉ scheme ∧ scheme.map Char.toLower = "bearer".toList ∧ Nonempty (Access.OperatorToken secret now token)

/-- Without an authority everybody is anonymous. -/
theorem unauthenticated_keeps {inner : Handler (Fleet.State σ)} (h : Guarded (Visit.HasRole "OPERATOR") inner) :
    Keeps (authenticated none inner) := by
  intro v s
  by_contra hne
  obtain ⟨o, ho, hnamed, -⟩ := h _ s hne
  obtain rfl := Option.some.inj ho
  simp [Access.Operator.isAnonymous] at hnamed

theorem authenticated_guarded (tokens : Access.TokenService) (now : Time.Instant) {inner : Handler (Fleet.State σ)}
    (h : Guarded (Visit.HasRole "OPERATOR") inner) :
    Guarded (fun v => v.request.ShowsOperator tokens.secret now)
      (authenticated (some fun context token => (tokens.operator now context token).map some) inner) := by
  intro v s hne
  simp only [authenticated] at hne
  split_ifs at hne with hheader
  · obtain ⟨o, ho, hnamed, -⟩ := h _ s hne
    obtain rfl := Option.some.inj ho
    simp [Access.Operator.isAnonymous] at hnamed
  · cases htoken : Access.Bearer.token? (v.request.header "Authorization") with
    | none => simp [htoken] at hne
    | some token =>
      simp only [htoken] at hne
      cases hoperator : tokens.operator now v.log token with
      | error f => simp [hoperator, Except.map] at hne
      | ok operator =>
        simp only [hoperator, Except.map] at hne
        obtain ⟨o, ho, -, hrole⟩ := h _ s hne
        obtain rfl := Option.some.inj ho
        obtain ⟨scheme, hsplit, hblank, hscheme⟩ := Access.Bearer.token?_eq_some htoken
        exact ⟨scheme, token.toList, hsplit, hblank, hscheme, Access.TokenService.operator_eq_ok hoperator hrole⟩

/-- Whatever a request asks for, it changes the map only if it shows the token of an operator; and
where tokens are not checked, no request changes the map. -/
theorem only_operators_change_map (m : MapSite σ) (c : Surroundings) (v : Visit) (s : Fleet.State σ)
    (hchanged : (m.handler c v s).1.tracker ≠ s.tracker) :
    c.authority ≠ none ∧
      ∀ (tokens : Access.TokenService) (now : Time.Instant),
        (c.authority = some fun context token => (tokens.operator now context token).map some) →
          v.request.ShowsOperator tokens.secret now := by
  have hroutes : Guarded (Visit.HasRole "OPERATOR")
      (Router.serve (commonRoutes c Mode.map.name ApiDocument.map ++ m.routes)) := by
    refine Router.serve_guarded fun r hr values => ?_
    rcases List.mem_append.mp hr with hr | hr
    · exact (commonRoutes_keep c _ _ r hr values).guarded _
    · exact m.routes_guarded r hr values
  obtain ⟨v', s', hrequest, htracker, hchain⟩ := chain_tracker c Mode.map.name
    (Router.serve (commonRoutes c Mode.map.name ApiDocument.map ++ m.routes)) v s
  have hinner := hchain ▸ htracker ▸ hchanged
  refine ⟨fun hnone => ?_, fun tokens now hauthority => ?_⟩
  · rw [hnone] at hinner
    exact hinner (unauthenticated_keeps hroutes v' s')
  · rw [hauthority] at hinner
    exact hrequest ▸ authenticated_guarded tokens now hroutes v' s' hinner

theorem Router.serve_of_found {routes : List (Route σ)} {v : Visit} {m : Match σ} (htext : v.request.target.text ≠ "*")
    (hclean : clean v.request.target.encodedPath.toList = v.request.target.encodedPath.toList)
    (hfound : find? routes v.request.method v.request.target.encodedPath.toList = some m)
    (hexact : isExact m v.request.target.encodedPath.toList = true) (s : σ) :
    serve routes v s = m.route.handler m.values v s := by
  simp only [serve, hclean, ite_self, hfound, Option.any_some, hexact, Bool.not_true, Bool.false_and,
    Bool.false_eq_true, if_false, if_neg htext, ne_eq, not_true_eq_false]

/-- The device of a removed marker is gone from the map. -/
theorem MapApi.deleteDevice_tracker (service : Fleet.Service σ) {octets : List UInt8} {id : String}
    (hid : Text.Utf8.valid? octets = some id) {t : Tracker} (v : Visit) {s : Fleet.State σ}
    (h : s.tracker.forget id = (t, true)) : (deleteDevice service octets v s).1.tracker = t := by
  simp only [deleteDevice, ofDevice, hid, Fleet.Service.forget, h, answer_tracker]
  exact Fleet.Service.hearAll_tracker _ (.removed id) service.listeners _

theorem requiringRoles_of_role {roles : List String} (next : Handler (Fleet.State σ)) {v : Visit}
    {o : Access.Operator} (ho : v.operator = some o) (hnamed : o.isAnonymous = false) (hrole : o.role ∈ roles)
    (s : Fleet.State σ) : requiringRoles roles next v s = next v s := by
  simp [requiringRoles, Visit.isAnonymous, ho, hnamed, hrole]

/-- The owner of a good token is let in under their own name. -/
theorem authenticated_of_token (find : Authority) (next : Handler (Fleet.State σ)) {v : Visit} {token : String}
    {o : Access.Operator} (htoken : Access.Bearer.token? (v.request.header "Authorization") = some token)
    (hfind : find v.log token = .ok (some o)) (s : Fleet.State σ) :
    authenticated (some find) next v s = next { v with log := v.log.withSubject o.subject, operator := some o } s := by
  have hheader : v.request.header "Authorization" ≠ "" := by
    intro he
    rw [he] at htoken
    cases htoken
  simp only [authenticated, if_neg hheader, htoken, hfind]

namespace Visiting

def tokens : Access.TokenService := ⟨"hush", ⟨0⟩⟩

def now : Time.Instant := ⟨1700000000, 0, 0⟩

def site : MapSite Unit where
  service := { settings := ⟨100.0, 80.0, false⟩, readClock := fun w => (now, w), listeners := [], resolver := none }
  stream := { hub := fun _ => { service := "map" }, setHub := fun _ w => w, now := fun _ => now }
  page := { title := "Bins", lat := 0.0, lng := 0.0, zoom := 12, stream := "/ws/markers" }
  takeOver := fun _ => .error "no connection"

def surroundings : Surroundings where
  authority := some fun context token => (tokens.operator now context token).map some
  health := []
  freshRequestId := "1"
  elapsed := "1ms"

def head : List Char := Access.Token.encodeJson Access.Token.header

def claims : Access.Claims :=
  { role := "OPERATOR", issuer := "smartrash", subject := "ann", expiresAt := some 1700000001 }

def body : List Char := Access.Token.encodeJson claims.toJson

def token : List Char :=
  head ++ '.' :: (body ++ '.' :: Access.Token.segment (Access.Token.signature tokens.secret (head ++ '.' :: body)))

def visit : Visit where
  request :=
    { method := "DELETE"
      target := ⟨"/api/devices/a", Text.Utf8.ofString "/api/devices/a", "/api/devices/a", ""⟩
      headers := [("authorization", String.ofList ("BEARER".toList ++ ' ' :: token))]
      body := []
      remote := "10.0.0.1" }

def state : Fleet.State Unit := ⟨{ shown := [("a", default)], sent := [("a", [])] }, (), {}⟩

theorem token_of_visit : Access.Bearer.token? (visit.request.header "Authorization") = some (String.ofList token) := by
  have hheader : visit.request.header "Authorization" = String.ofList ("BEARER".toList ++ ' ' :: token) := by
    have hname : ("authorization".toLower == "Authorization".toLower) = true := by decide +kernel
    simp [visit, Request.header, hname]
  rw [hheader]
  exact Access.Bearer.token?_of_scheme (by decide +kernel) (by decide +kernel) (by simp [token])

theorem operator_of_token (context : LogContext) :
    tokens.operator now context (String.ofList token) = .ok ⟨"ann", "OPERATOR"⟩ := by
  have hheader : Json.Fits Access.Token.header Json.nestingLimit :=
    Json.fits_object (Json.fitFields_cons (by decide +kernel) (Json.fits_ofText _ _)
      (Json.fitFields_cons (by decide +kernel) (Json.fits_ofText _ _) (Json.fitFields_nil _)))
  have hclaims : Json.Fits claims.toJson Json.nestingLimit :=
    Json.fits_object (Json.fitFields_cons (by decide +kernel) (Json.fits_ofText _ _)
      (Json.fitFields_cons (by decide +kernel) (Json.fits_ofText _ _)
        (Json.fitFields_cons (by decide +kernel) (Json.fits_ofText _ _)
          (Json.fitFields_cons (by decide +kernel) (Json.fits_ofInt 1700000001 _) (Json.fitFields_nil _)))))
  have hverified : Access.Token.verified? tokens.secret (String.ofList token) = some claims :=
    Access.Token.verified?_of_signed (by decide +kernel) (by decide +kernel)
      (Access.Token.decodeJson?_encodeJson hheader) (Access.Token.decodeJson?_encodeJson hclaims)
      (by decide +kernel) (by decide +kernel)
  exact Access.TokenService.operator_of_claims hverified (by decide +kernel) (by decide +kernel) rfl (by decide) context

def routes : List (Route (Fleet.State Unit)) :=
  commonRoutes surroundings Mode.map.name ApiDocument.map ++ site.routes

/-- The request goes to the route that removes a device. -/
theorem find?_visit : ∃ m, Router.find? routes visit.request.method visit.request.target.encodedPath.toList = some m ∧
    m.route = .device "DELETE" (MapSite.deviceRoute []) (fun id =>
      MapSite.forOperators (MapApi.deleteDevice site.service id)) ∧
    m.values = [[97]] ∧ Router.isExact m visit.request.target.encodedPath.toList = true := by
  have hfound : (Router.find? routes visit.request.method visit.request.target.encodedPath.toList).map
      (fun m => (m.route.method, m.values, Router.isExact m visit.request.target.encodedPath.toList)) =
        some (some "DELETE", [[97]], true) := by decide +kernel
  obtain ⟨m, hm, hproperties⟩ := Option.map_eq_some_iff.mp hfound
  obtain ⟨hmethod, hvalues, hexact⟩ := by simpa only [Prod.mk.injEq] using hproperties
  refine ⟨m, hm, ?_, hvalues, hexact⟩
  have hmem : m.route ∈ routes.filter (·.method == some "DELETE") :=
    List.mem_filter.mpr ⟨Router.find?_mem hm, by simp [hmethod]⟩
  have hroutes : routes.filter (·.method == some "DELETE") = [.device "DELETE" (MapSite.deviceRoute []) fun id =>
      MapSite.forOperators (MapApi.deleteDevice site.service id)] := rfl
  rw [hroutes] at hmem
  exact List.mem_singleton.mp hmem

theorem serve_empties_map {v : Visit} (hrequest : v.request = visit.request)
    (ho : v.operator = some ⟨"ann", "OPERATOR"⟩) {s : Fleet.State Unit} (hs : s.tracker = state.tracker) :
    (Router.serve routes v s).1.tracker = .empty := by
  obtain ⟨m, hm, hroute, hvalues, hexact⟩ := find?_visit
  have hclean : Router.clean visit.request.target.encodedPath.toList = visit.request.target.encodedPath.toList := by
    decide +kernel
  have hforget : s.tracker.forget "a" = (.empty, true) := by
    rw [hs]
    rfl
  rw [Router.serve_of_found (by rw [hrequest]; decide) (hrequest ▸ hclean) (hrequest ▸ hm) (hrequest ▸ hexact) s,
    hroute, hvalues]
  have hrole : "OPERATOR" ∈ [Access.operatorRole] := by decide
  have hlet := requiringRoles_of_role (MapApi.deleteDevice site.service [97]) ho rfl hrole s
  exact (congrArg (·.1.tracker) hlet).trans (MapApi.deleteDevice_tracker site.service (by decide +kernel) v hforget)

theorem handler_empties_map : (site.handler surroundings visit state).1.tracker = .empty := by
  obtain ⟨v, s, hrequest, htracker, hchain⟩ :=
    chain_tracker surroundings Mode.map.name (Router.serve routes) visit state
  have hfind : (tokens.operator now v.log (String.ofList token)).map some = .ok (some ⟨"ann", "OPERATOR"⟩) := by
    rw [operator_of_token]
    rfl
  have htoken : Access.Bearer.token? (v.request.header "Authorization") = some (String.ofList token) :=
    hrequest ▸ token_of_visit
  have hlet := authenticated_of_token (fun context token => (tokens.operator now context token).map some)
    (Router.serve routes) htoken hfind s
  refine hchain.trans ((congrArg (·.1.tracker) hlet).trans ?_)
  exact serve_empties_map (v := ⟨v.request, v.log.withSubject "ann", some ⟨"ann", "OPERATOR"⟩⟩) hrequest rfl htracker

/-- With a token in hand the operator takes the only device off the map. -/
theorem operator_empties_map : (site.handler surroundings visit state).1.tracker ≠ state.tracker ∧
    surroundings.authority ≠ none ∧ visit.request.ShowsOperator tokens.secret now := by
  have hchanged : (site.handler surroundings visit state).1.tracker ≠ state.tracker := by
    rw [handler_empties_map]
    exact fun h => List.cons_ne_nil _ _ (congrArg Tracker.shown h).symm
  obtain ⟨hauthority, hshows⟩ := only_operators_change_map site surroundings visit state hchanged
  exact ⟨hchanged, hauthority, hshows tokens now rfl⟩

end Visiting

end BinFleet.Web
