import BinFleet.Proofs.Settings.Loading
import BinFleet.Proofs.Url
import BinFleet.Proofs.Web.Operators

namespace BinFleet.Text

section Pieces

variable {α : Type} [DecidableEq α] {mark : α}

theorem splitList_append_mark (xs ys : List α) :
    splitList mark (xs ++ mark :: ys) = splitList mark xs ++ splitList mark ys := by
  induction xs with
  | nil => rw [List.nil_append, splitList_cons, if_pos rfl]; rfl
  | cons x xs ih =>
    obtain ⟨piece, rest, hp⟩ := List.exists_cons_of_ne_nil (splitList_ne_nil mark xs)
    rw [List.cons_append, splitList_cons, splitList_cons, ih, hp]
    split_ifs <;> rfl

/-- Pieces that are put together fall into their own pieces. -/
theorem splitList_intercalate_flatMap {pieces : List (List α)} (hne : pieces ≠ []) :
    splitList mark ([mark].intercalate pieces) = pieces.flatMap (splitList mark) := by
  induction pieces with
  | nil => exact absurd rfl hne
  | cons piece rest ih =>
    cases rest with
    | nil => rw [List.intercalate_singleton, List.flatMap_singleton]
    | cons next rest =>
      rw [List.intercalate_cons_cons, List.append_assoc, List.singleton_append, splitList_append_mark,
        ih (List.cons_ne_nil _ _)]
      rfl

theorem flatMap_splitList {pieces : List (List α)} (h : ∀ piece ∈ pieces, mark ∉ piece) :
    pieces.flatMap (splitList mark) = pieces := by
  induction pieces with
  | nil => rfl
  | cons piece rest ih =>
    obtain ⟨hpiece, hrest⟩ := List.forall_mem_cons.mp h
    rw [List.flatMap_cons, splitList_of_not_mem hpiece, ih hrest, List.singleton_append]

theorem intercalate_inj {pieces pieces' : List (List α)} (hne : pieces ≠ []) (hne' : pieces' ≠ [])
    (h : ∀ piece ∈ pieces, mark ∉ piece) (h' : ∀ piece ∈ pieces', mark ∉ piece)
    (heq : [mark].intercalate pieces = [mark].intercalate pieces') : pieces = pieces' := by
  rw [← splitList_intercalate hne h, heq, splitList_intercalate hne' h']

end Pieces

theorem Utf8.encode_intercalate (pieces : List (List Char)) :
    encode (['/'].intercalate pieces) = [0x2f].intercalate (pieces.map encode) := by
  induction pieces with
  | nil => rfl
  | cons piece rest ih =>
    cases rest with
    | nil => simp [encode]
    | cons next rest =>
      rw [List.intercalate_cons_cons, List.map_cons, List.map_cons, List.intercalate_cons_cons, ← List.map_cons, ← ih]
      simp only [encode, List.flatMap_append]
      rfl

end BinFleet.Text

namespace BinFleet.Web

open Text.Utf8 (encode ofString)

namespace Target

/-- A path starts with a slash, or there is no slash in it. -/
def Rooted (path : List Char) : Prop := path.head? = some '/' ∨ '/' ∉ path

variable {text : String} {path query : List Char} {t : Target}

theorem spells_encodePath {decoded : List UInt8} (h : Url.Spells (encode path) decoded) :
    Url.Spells (ofString (encodePath (encode path) decoded)) decoded := by
  unfold encodePath
  split_ifs
  · rwa [Text.Utf8.toString, Text.Utf8.decode_encode, ofString, String.toList_ofList]
  · rw [ofString, String.toList_ofList]
    exact Url.spells_encodeWith Url.keptInPath_ascii decoded

theorem rooted_encodePath (hpath : path.head? = some '/' ∨ path = []) {decoded : List UInt8}
    (h : Url.Spells (encode path) decoded) : Rooted (encodePath (encode path) decoded).toList := by
  unfold encodePath
  split_ifs
  · rw [Text.Utf8.toString, Text.Utf8.decode_encode, String.toList_ofList]
    rcases hpath with hpath | rfl
    · exact .inl hpath
    · exact .inr List.not_mem_nil
  · rw [String.toList_ofList]
    rcases hpath with hpath | rfl
    · obtain ⟨rest, rfl⟩ : ∃ rest, path = '/' :: rest := List.head?_eq_some_iff.mp hpath
      have hdecoded : Url.Spells (0x2f :: encode rest) decoded := h
      cases hdecoded
      exact .inl rfl
    · cases h
      exact .inr List.not_mem_nil

theorem ofPath_ok (h : ofPath text path query = .ok t) (hpath : path.head? = some '/' ∨ path = []) :
    Url.Spells (ofString t.encodedPath) t.path ∧ Rooted t.encodedPath.toList := by
  unfold ofPath at h
  dsimp only at h
  split at h
  · simp at h
  · rename_i decoded hdecode
    obtain rfl := Except.ok.inj h
    have hspells := Url.decode_eq_ok_iff.mp hdecode
    exact ⟨spells_encodePath hspells, rooted_encodePath hpath hspells⟩

theorem afterAuthority_ok {rest : List Char} (h : afterAuthority rest = .ok path) (hrest : rest.head? = some '/') :
    path.head? = some '/' ∨ path = [] := by
  unfold afterAuthority at h
  split at h
  · rename_i rest
    simp only [bind, Except.bind, pure, Except.pure] at h
    split at h
    · simp at h
    · obtain rfl := Except.ok.inj h
      have hhead := List.head?_dropWhile_not (fun c => decide (c ≠ '/')) rest
      cases hpath : rest.dropWhile (fun c => decide (c ≠ '/')) with
      | nil => exact .inr rfl
      | cons c path =>
        rw [hpath] at hhead
        exact .inl (by simpa using hhead)
  · obtain rfl := Except.ok.inj h
    exact .inl hrest

theorem read_ok (h : read text = .ok t) : Url.Spells (ofString t.encodedPath) t.path ∧ Rooted t.encodedPath.toList := by
  unfold read at h
  simp only [bind, Except.bind, pure, Except.pure, throw, throwThe, MonadExceptOf.throw] at h
  split_ifs at h with _ _ _ hstar
  · obtain rfl := Except.ok.inj h
    refine ⟨?_, ?_⟩
    · simp only [ofString, hstar]
      exact .plain (by decide) .nil
    · exact .inr (by simp [hstar])
  · split at h
    · simp at h
    · generalize (Text.cut? '?' _).getD _ = parts at h
      split_ifs at h with hslash
      · split at h
        · simp at h
        · rename_i path hpath
          exact ofPath_ok h (afterAuthority_ok hpath hslash)
      · exact ofPath_ok h (.inl hslash)
      · exact ofPath_ok h (.inr rfl)

end Target

/-- Requests as they come in. -/
def Request.IsRead (r : Request) : Prop :=
  ∃ method target headers body remote, Request.ofTarget method target headers body remote = .ok r

theorem Request.IsRead.spells {r : Request} (h : r.IsRead) :
    Url.Spells (ofString r.target.encodedPath) r.path ∧ Target.Rooted r.target.encodedPath.toList := by
  obtain ⟨method, target, headers, body, remote, h⟩ := h
  simp only [Request.ofTarget, Request.readTarget, bind, Except.bind, pure, Except.pure, Except.map] at h
  generalize Request.completeTarget _ _ = text at h
  cases hread : Target.read text with
  | error e => simp [hread] at h
  | ok t =>
    simp only [hread] at h
    obtain rfl := Except.ok.inj h
    have hpath := Target.read_ok hread
    exact hpath

namespace Router

variable {σ : Type} {values segs : List (List UInt8)}

theorem find?_matches {routes : List (Route σ)} {method : String} {path : List Char} {m : Match σ}
    (h : find? routes method path = some m) : matches? m.route.pattern (segments path) = some m.values := by
  obtain ⟨_, hfirst⟩ := find?_first h
  obtain ⟨r, -, hm⟩ := List.exists_of_findSome?_eq_some hfirst
  obtain ⟨values, hvalues, rfl⟩ := Option.map_eq_some_iff.mp hm
  exact hvalues

theorem matches?_literals {texts : List String} (h : matches? (texts.map .literal) segs = some values) :
    segs = texts.map ofString ∧ values = [] := by
  induction texts generalizing segs with
  | nil =>
    cases segs with
    | nil => exact ⟨rfl, (Option.some.inj h).symm⟩
    | cons s segs => simp [matches?] at h
  | cons text texts ih =>
    cases segs with
    | nil => simp [matches?] at h
    | cons s segs =>
      rw [List.map_cons, matches?] at h
      split_ifs at h with htext
      obtain ⟨rfl, rfl⟩ := ih h
      exact ⟨by rw [List.map_cons, htext], rfl⟩

/-- A path that starts with a slash is its segments with slashes before them, unless it ends with a
slash. -/
theorem path_eq_segments {r : Request} (hr : r.IsRead) (hne : segments r.target.encodedPath.toList ≠ [])
    (hlast : (segments r.target.encodedPath.toList).getLast? ≠ some [0x2f]) :
    r.path = [0x2f].intercalate ([] :: segments r.target.encodedPath.toList) := by
  obtain ⟨hspells, hrooted⟩ := hr.spells
  -- the path was split as it was sent, and each piece was decoded by itself
  generalize hsent : r.target.encodedPath.toList = sent at *
  rcases hrooted with hslash | hslash
  · obtain ⟨more, rfl⟩ := List.head?_eq_some_iff.mp hslash
    have hpieces : Text.splitList '/' ('/' :: more) = [] :: Text.splitList '/' more := by
      rw [Text.splitList_cons, if_pos rfl]
    have hsegments : segments ('/' :: more) = (Text.splitList '/' more).map unescaped := by
      unfold segments at hlast ⊢
      rw [hpieces, List.drop_one, List.tail_cons] at hlast ⊢
      dsimp only at hlast ⊢
      split at hlast
      · simp at hlast
      · rfl
    rw [ofString, hsent, ← Text.intercalate_splitList '/' ('/' :: more), Text.Utf8.encode_intercalate] at hspells
    rw [Url.spells_intercalate hspells, hpieces, hsegments, List.map_map]
    rfl
  · rw [segments, Text.splitList_of_not_mem hslash] at hne
    exact absurd rfl hne

end Router

/-- The pattern of a route for one device. -/
def devicePattern (service : String) (rest : List String) : List Segment :=
  .literal service :: .literal "devices" :: .any :: rest.map .literal

theorem Router.matches?_device {service : String} {rest : List String} {segs values : List (List UInt8)}
    (h : matches? (devicePattern service rest) segs = some values) :
    ∃ id, values = [id] ∧ id ≠ [0x2f] ∧ segs = ofString service :: RouteLabel.devices :: id :: rest.map ofString := by
  match segs with
  | [] => simp [devicePattern, matches?] at h
  | [_] => simp [devicePattern, matches?] at h
  | [_, _] => simp [devicePattern, matches?] at h
  | first :: second :: id :: segs =>
    simp only [devicePattern, matches?] at h
    split_ifs at h with hfirst hsecond hid
    obtain ⟨others, hothers, rfl⟩ := Option.map_eq_some_iff.mp h
    obtain ⟨rfl, rfl⟩ := matches?_literals hothers
    exact ⟨id, rfl, hid, by rw [hfirst, ← hsecond]; rfl⟩

namespace RouteLabel

variable {previous : List UInt8} {segs : List (List UInt8)}

theorem length_relabel (previous : List UInt8) (segs : List (List UInt8)) :
    (relabel previous segs).length = segs.length := by
  induction segs generalizing previous with
  | nil => rfl
  | cons s segs ih => rw [relabel, List.length_cons, ih, List.length_cons]

theorem relabel_of_not_mem (hprevious : previous ≠ devices) (h : devices ∉ segs) : relabel previous segs = segs := by
  induction segs generalizing previous with
  | nil => rfl
  | cons s segs ih =>
    obtain ⟨hs, hsegs⟩ := List.ne_and_not_mem_of_not_mem_cons h
    rw [relabel, if_neg fun hlabel => hprevious hlabel.1, ih hs.symm hsegs]

theorem slash_not_mem_relabel (h : ∀ s ∈ segs, 0x2f ∉ s) : ∀ s ∈ relabel previous segs, 0x2f ∉ s := by
  induction segs generalizing previous with
  | nil => exact List.forall_mem_nil _
  | cons s segs ih =>
    obtain ⟨hs, hsegs⟩ := List.forall_mem_cons.mp h
    rw [relabel]
    refine List.forall_mem_cons.mpr ⟨?_, ih hsegs⟩
    split_ifs
    · decide
    · exact hs

section Device

variable {service id : List UInt8} {rest : List (List UInt8)} (hservice : 0x2f ∉ service) (hrest : ∀ s ∈ rest, 0x2f ∉ s)

include hservice hrest

/-- The label of a device's path goes by the pieces of the id. -/
theorem ofPath_device (hother : service ≠ devices) (id : List UInt8) :
    ofPath ([0x2f].intercalate ([] :: service :: devices :: id :: rest)) =
      [0x2f].intercalate ([] :: service :: devices :: relabel devices (Text.splitList 0x2f id ++ rest)) := by
  have hdevices : (0x2f : UInt8) ∉ devices := by decide
  have hpieces : Text.splitList 0x2f ([0x2f].intercalate ([] :: service :: devices :: id :: rest)) =
      [] :: service :: devices :: (Text.splitList 0x2f id ++ rest) := by
    rw [Text.splitList_intercalate_flatMap (List.cons_ne_nil _ _)]
    simp only [List.flatMap_cons, Text.flatMap_splitList hrest, Text.splitList_of_not_mem hservice,
      Text.splitList_of_not_mem hdevices, Text.splitList_of_not_mem List.not_mem_nil, List.singleton_append]
  have hnil : ([] : List UInt8) ≠ devices := by decide
  rw [ofPath, hpieces]
  dsimp only
  rw [relabel, if_neg fun h => hnil h.1, relabel, if_neg fun h => hother h.1]

theorem ofPath_device_iff (hother : service ≠ devices) (hdevices : devices ∉ rest) (hid : id ≠ []) :
    ofPath ([0x2f].intercalate ([] :: service :: devices :: id :: rest)) =
      [0x2f].intercalate ([] :: service :: devices :: placeholder :: rest) ↔ 0x2f ∉ id := by
  rw [ofPath_device hservice hrest hother]
  constructor
  · intro hlabel
    have hpieces : ∀ s ∈ Text.splitList 0x2f id ++ rest, 0x2f ∉ s :=
      List.forall_mem_append.mpr ⟨fun s hs => Text.not_mem_of_mem_splitList hs, hrest⟩
    have hfront : ∀ tail : List (List UInt8), (∀ s ∈ tail, 0x2f ∉ s) →
        ∀ s ∈ [] :: service :: devices :: tail, (0x2f : UInt8) ∉ s := by
      intro tail htail
      simp only [List.forall_mem_cons]
      exact ⟨List.not_mem_nil, hservice, by decide, htail⟩
    have hsame := Text.intercalate_inj (List.cons_ne_nil _ _) (List.cons_ne_nil _ _)
      (hfront _ (slash_not_mem_relabel hpieces)) (hfront _ (List.forall_mem_cons.mpr ⟨by decide, hrest⟩)) hlabel
    -- relabelling keeps the number of segments
    have hlength := congrArg List.length hsame
    simp only [List.length_cons, length_relabel, List.length_append] at hlength
    obtain ⟨piece, hpiece⟩ := List.length_eq_one_iff.mp (by omega : (Text.splitList 0x2f id).length = 1)
    have hwhole := Text.intercalate_splitList 0x2f id
    rw [hpiece, List.intercalate_singleton] at hwhole
    exact hwhole ▸ Text.not_mem_of_mem_splitList (hpiece ▸ List.mem_singleton_self piece)
  · intro hslash
    have hplaceholder : placeholder ≠ devices := by decide
    rw [Text.splitList_of_not_mem hslash, List.singleton_append, relabel, if_pos ⟨rfl, hid⟩,
      relabel_of_not_mem hplaceholder hdevices]

end Device

end RouteLabel

/-- What a pattern shows in the place of a segment. -/
def Segment.shown : Segment → List UInt8
  | literal text => ofString text
  | any => RouteLabel.placeholder
  | rest => []

/-- The path that a pattern shows; before the rest of a path it ends with a slash. -/
def patternPath (pattern : List Segment) : List UInt8 := [0x2f].intercalate ([] :: pattern.map Segment.shown)

/-- The routes of the two sites. -/
inductive SiteRoutes : {τ : Type} → List (Route τ) → Prop
  | map {σ : Type} (c : Surroundings) (m : MapSite σ) :
      SiteRoutes (commonRoutes c Mode.map.name ApiDocument.map ++ m.routes)
  | archive {σ : Type} (c : Surroundings) (db : Archive.Database σ) :
      SiteRoutes (commonRoutes c Mode.archive.name ApiDocument.archive ++ ArchiveSite.routes db)

/-- The words around a device in the patterns of both sites. -/
def deviceWords : List (String × List String) :=
  [("api", []), ("api", ["history"]), ("api", ["history.csv"]), ("archive", ["readings"])]

/-- Words that are one segment each and that no device follows. -/
structure AreQuiet (words : String × List String) : Prop where
  service : 0x2f ∉ ofString words.1
  rest : ∀ s ∈ words.2.map ofString, 0x2f ∉ s
  service_ne : ofString words.1 ≠ RouteLabel.devices
  not_mem_rest : RouteLabel.devices ∉ words.2.map ofString

theorem areQuiet_deviceWords {words : String × List String} (h : words ∈ deviceWords) : AreQuiet words := by
  have hall : ∀ words ∈ deviceWords, 0x2f ∉ ofString words.1 ∧ (∀ s ∈ words.2.map ofString, 0x2f ∉ s) ∧
      ofString words.1 ≠ RouteLabel.devices ∧ RouteLabel.devices ∉ words.2.map ofString := by decide
  obtain ⟨hservice, hrest, hne, hmem⟩ := hall words h
  exact ⟨hservice, hrest, hne, hmem⟩

def commonPatterns : List (List Segment) := [[.literal "health"], Documentation.pattern, [.literal "metrics"]]

def mapPatterns : List (List Segment) :=
  [[.literal "/"], [.literal "ws", .literal "markers"], MapSite.api ["markers"], MapSite.api ["markers", "nearby"],
    MapSite.api ["stats"], MapSite.deviceRoute [], MapSite.deviceRoute ["history"], MapSite.deviceRoute ["history.csv"],
    MapSite.api ["readings"], MapSite.deviceRoute []]

def archivePatterns : List (List Segment) :=
  [[.literal "archive", .literal "devices"], [.literal "archive", .literal "devices", .any, .literal "readings"]]

theorem SiteRoutes.mem_patterns {τ : Type} {routes : List (Route τ)} (h : SiteRoutes routes) {route : Route τ}
    (hroute : route ∈ routes) : route.pattern ∈ commonPatterns ++ mapPatterns ++ archivePatterns := by
  have hpattern := List.mem_map_of_mem (f := Route.pattern) hroute
  cases h with
  | map c m =>
    have hpatterns : (commonRoutes c Mode.map.name ApiDocument.map ++ m.routes).map Route.pattern =
        commonPatterns ++ mapPatterns := rfl
    exact List.mem_append_left _ (hpatterns ▸ hpattern)
  | archive c db =>
    have hpatterns : (commonRoutes c Mode.archive.name ApiDocument.archive ++ ArchiveSite.routes db).map Route.pattern =
        commonPatterns ++ archivePatterns := rfl
    rw [hpatterns] at hpattern
    simp only [List.mem_append] at hpattern ⊢
    exact hpattern.imp_left .inl

theorem SiteRoutes.devicePattern {τ : Type} {routes : List (Route τ)} (h : SiteRoutes routes) {route : Route τ}
    (hroute : route ∈ routes) (hdevice : .any ∈ route.pattern) :
    ∃ words ∈ deviceWords, route.pattern = Web.devicePattern words.1 words.2 := by
  have hall : ∀ pattern ∈ commonPatterns ++ mapPatterns ++ archivePatterns, .any ∈ pattern →
      ∃ words ∈ deviceWords, pattern = Web.devicePattern words.1 words.2 := by decide
  exact hall _ (h.mem_patterns hroute) hdevice

/-- A request that reaches a device route has the device's id between the words of the pattern. -/
theorem SiteRoutes.path_eq {τ : Type} {routes : List (Route τ)} (h : SiteRoutes routes) {r : Request} (hr : r.IsRead)
    {m : Router.Match τ} (hfound : Router.find? routes r.method r.target.encodedPath.toList = some m)
    (hdevice : .any ∈ m.route.pattern) :
    ∃ words id, AreQuiet words ∧ m.route.pattern = Web.devicePattern words.1 words.2 ∧ m.values = [id] ∧
      r.path = [0x2f].intercalate ([] :: ofString words.1 :: RouteLabel.devices :: id :: words.2.map ofString) := by
  obtain ⟨words, hwords, hpattern⟩ := h.devicePattern (Router.find?_mem hfound) hdevice
  have hquiet := areQuiet_deviceWords hwords
  have hmatches := Router.find?_matches hfound
  rw [hpattern] at hmatches
  obtain ⟨id, hvalues, hid, hsegments⟩ := Router.matches?_device hmatches
  -- a path with a slash at its end would have a slash as a segment
  have hslash : ∀ s ∈ Router.segments r.target.encodedPath.toList, s ≠ [0x2f] := by
    rw [hsegments]
    simp only [List.forall_mem_cons]
    refine ⟨fun h => hquiet.service (h ▸ by decide), by decide, hid, fun s hs h => hquiet.rest s hs (h ▸ by decide)⟩
  have hne : Router.segments r.target.encodedPath.toList ≠ [] := hsegments ▸ List.cons_ne_nil _ _
  refine ⟨words, id, hquiet, hpattern, hvalues, ?_⟩
  rw [← hsegments]
  exact Router.path_eq_segments hr hne fun hlast => hslash _ (List.mem_of_getLast? hlast) rfl

theorem patternPath_device (service : String) (rest : List String) :
    patternPath (devicePattern service rest) = [0x2f].intercalate
      ([] :: ofString service :: RouteLabel.devices :: RouteLabel.placeholder :: rest.map ofString) := by
  rw [patternPath, devicePattern, List.map_cons, List.map_cons, List.map_cons, List.map_map]
  rfl

theorem SiteRoutes.label_iff {τ : Type} {routes : List (Route τ)} (h : SiteRoutes routes) {r : Request} (hr : r.IsRead)
    {m : Router.Match τ} (hfound : Router.find? routes r.method r.target.encodedPath.toList = some m)
    (hdevice : .any ∈ m.route.pattern) :
    ∃ id, m.values = [id] ∧ (id ≠ [] → (RouteLabel.ofPath r.path = patternPath m.route.pattern ↔ 0x2f ∉ id)) := by
  obtain ⟨words, id, hquiet, hpattern, hvalues, hpath⟩ := h.path_eq hr hfound hdevice
  refine ⟨id, hvalues, fun hid => ?_⟩
  rw [hpath, hpattern, patternPath_device]
  exact RouteLabel.ofPath_device_iff hquiet.service hquiet.rest hquiet.service_ne hquiet.not_mem_rest hid

/-- Two requests that reach the same device route of a site with ids of devices in them have one
label, the path of the route's pattern, exactly when there is no slash in either id. -/
theorem device_labels_alike_iff {τ : Type} {routes : List (Route τ)} (hroutes : SiteRoutes routes) {route : Route τ}
    (hdevice : .any ∈ route.pattern) {r r' : Request} (hr : r.IsRead) (hr' : r'.IsRead)
    {values values' : List (List UInt8)}
    (hfound : Router.find? routes r.method r.target.encodedPath.toList = some ⟨route, values⟩)
    (hfound' : Router.find? routes r'.method r'.target.encodedPath.toList = some ⟨route, values'⟩) :
    ∃ id id', values = [id] ∧ values' = [id'] ∧ (id ≠ [] → id' ≠ [] →
      ((RouteLabel.ofPath r.path = RouteLabel.ofPath r'.path ∧ RouteLabel.ofPath r'.path = patternPath route.pattern) ↔
        0x2f ∉ id ∧ 0x2f ∉ id')) := by
  obtain ⟨id, hvalues, hlabel⟩ := hroutes.label_iff hr hfound hdevice
  obtain ⟨id', hvalues', hlabel'⟩ := hroutes.label_iff hr' hfound' hdevice
  refine ⟨id, id', hvalues, hvalues', fun hid hid' => ?_⟩
  rw [← hlabel hid, ← hlabel' hid']
  constructor
  · rintro ⟨hsame, hpattern⟩
    exact ⟨hsame.trans hpattern, hpattern⟩
  · rintro ⟨hpattern, hpattern'⟩
    exact ⟨hpattern.trans hpattern'.symm, hpattern'⟩

namespace Asking

open Visiting (routes)

/-- A request for a path, as it was sent and with its percent signs resolved. -/
def request (sent path : String) : Request := ⟨"GET", ⟨sent, ofString path, sent, ""⟩, [], [], "10.0.0.1"⟩

theorem request_isRead {sent path : String} (h : Target.read sent = .ok ⟨sent, ofString path, sent, ""⟩) :
    (request sent path).IsRead := by
  have hcomplete : Request.completeTarget "GET" sent = sent := if_neg fun hconnect => absurd hconnect.1 (by decide)
  have hread : Request.readTarget "GET" sent = .ok ⟨sent, ofString path, sent, ""⟩ := by
    rw [Request.readTarget, hcomplete, h]
    rfl
  refine ⟨"GET", sent, [], [], "10.0.0.1", ?_⟩
  rw [Request.ofTarget, if_neg (by decide), hread]
  rfl

def dotted : Request := request "/api/devices/bin%2E7/history" "/api/devices/bin.7/history"

def word : Request := request "/api/devices/devices/history" "/api/devices/devices/history"

/-- The histories of a device with a dot in its id and of one that is called as all devices are. -/
theorem histories_alike : dotted.IsRead ∧ word.IsRead ∧
    RouteLabel.ofPath dotted.path = RouteLabel.ofPath word.path ∧
      RouteLabel.ofPath word.path = patternPath (MapSite.deviceRoute ["history"]) := by
  have hdotted : dotted.IsRead := request_isRead (by decide +kernel)
  have hword : word.IsRead := request_isRead (by decide +kernel)
  have hfound : Router.find? routes "GET" "/api/devices/bin%2E7/history".toList =
      some ⟨.device "GET" (MapSite.deviceRoute ["history"]) MapApi.history, [ofString "bin.7"]⟩ := rfl
  have hfound' : Router.find? routes "GET" "/api/devices/devices/history".toList =
      some ⟨.device "GET" (MapSite.deviceRoute ["history"]) MapApi.history, [ofString "devices"]⟩ := rfl
  obtain ⟨id, id', hid, hid', halike⟩ := device_labels_alike_iff (.map Visiting.surroundings Visiting.site)
    (by decide) hdotted hword hfound hfound'
  obtain rfl := List.singleton_inj.mp hid
  obtain rfl := List.singleton_inj.mp hid'
  exact ⟨hdotted, hword, (halike (by decide) (by decide)).mpr ⟨by decide, by decide⟩⟩

def slashed : Request := request "/api/devices/a%2Fb" "/api/devices/a/b"

/-- A part of an id with a slash gets into the label. -/
theorem slashed_id_leaks : slashed.IsRead ∧
    (Router.find? routes slashed.method slashed.target.encodedPath.toList).map (fun m => (m.route.pattern, m.values)) =
      some (MapSite.deviceRoute [], [ofString "a/b"]) ∧
    patternPath (MapSite.deviceRoute []) = ofString "/api/devices/\x7bdevice_id\x7d" ∧
    RouteLabel.ofPath slashed.path = ofString "/api/devices/\x7bdevice_id\x7d/b" :=
  ⟨request_isRead (by decide +kernel), by decide +kernel, by decide, by decide +kernel⟩

end Asking

end BinFleet.Web
