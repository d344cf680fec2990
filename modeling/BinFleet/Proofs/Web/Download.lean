import BinFleet.Proofs.Csv
import BinFleet.Proofs.Fleet.Marking
import BinFleet.Proofs.Text
import BinFleet.Proofs.Time.Instant
import BinFleet.Web.MapApi

namespace BinFleet

namespace Number

theorem Digits.mem_positional {d : Digits} (h : ∀ c ∈ d.digits, c.isDigit = true) {c : Char} (hc : c ∈ d.positional) :
    c.isDigit = true ∨ c = '.' := by
  have hzero : '0'.isDigit = true := by decide
  rw [positional] at hc
  split_ifs at hc with hpoint
  · simp only [List.mem_cons, List.mem_append, List.mem_replicate] at hc
    rcases hc with rfl | rfl | ⟨-, rfl⟩ | hc
    · exact .inl hzero
    · exact .inr rfl
    · exact .inl hzero
    · exact .inl (h c hc)
  · dsimp only at hc
    split_ifs at hc with hlength
    · simp only [List.mem_append, List.mem_replicate] at hc
      rcases hc with hc | ⟨-, rfl⟩
      · exact .inl (h c hc)
      · exact .inl hzero
    · simp only [List.mem_append, List.mem_cons] at hc
      rcases hc with hc | rfl | hc
      · exact .inl (h c (List.mem_of_mem_take hc))
      · exact .inr rfl
      · exact .inl (h c (List.mem_of_mem_drop hc))

theorem Digits.isDigit_ofDecimal (d : Decimal) : ∀ c ∈ (ofDecimal d).digits, c.isDigit = true := by
  intro c hc
  rw [ofDecimal] at hc
  split_ifs at hc with hempty
  · rw [List.mem_singleton.mp hc]
    decide
  · have hmem := (List.dropWhile_sublist _).mem (List.mem_reverse.mp hc)
    exact Nat.isDigit_of_mem_toDigits (by decide) (by decide) (List.mem_reverse.mp hmem)

/-- Without exponents, a finite number has digits, a point and a sign at most. -/
theorem Layout.mem_plain {x : Float} (hx : isFinite x = true) {c : Char} (hc : c ∈ (plain.write x).toList) :
    c.isDigit = true ∨ c = '.' ∨ c = '-' := by
  obtain ⟨negative, b, hb⟩ := isFinite_iff.mp hx
  rw [write, String.toList_ofList, hb, render] at hc
  rcases List.mem_append.mp hc with hsign | hc
  · cases negative with
    | false => exact absurd hsign List.not_mem_nil
    | true => exact .inr (.inr (List.mem_singleton.mp hsign))
  · split_ifs at hc with hzero
    · rw [List.mem_singleton.mp hc]
      exact .inl (by decide)
    · have hmagnitude : plain.magnitude (Digits.ofDecimal (Decimal.shortest b)) =
          (Digits.ofDecimal (Decimal.shortest b)).positional := rfl
      rw [hmagnitude] at hc
      exact (Digits.mem_positional (Digits.isDigit_ofDecimal _) hc).imp_right .inl

end Number

namespace History

/-- The text of a number: it is read back as the number, and has no exponent. -/
structure Spells (text : String) (x : Float) : Prop where
  read : Number.read text = .ok x
  decimal : Number.isFinite x = true → ∀ c ∈ text.toList, c.isDigit = true ∨ c = '.' ∨ c = '-'

theorem number_spells (x : Float) : Spells (number x) x :=
  ⟨Number.Layout.read_write .plain x, fun hx _ => Number.Layout.mem_plain hx⟩

/-- The RFC 3339 text of a time: it is read back as the time. -/
structure Dates (text : String) (t : Time.Instant) : Prop where
  written : t.text = .ok text
  read : t.Regular → Time.Instant.parse? text = some t

theorem dates_of_text {t : Time.Instant} {text : String} (h : t.text = .ok text) : Dates text t := by
  refine ⟨h, fun hregular => ?_⟩
  have hoffset := (Time.Instant.text_ok_iff.mp ⟨text, h⟩).offset
  rw [hregular.text_eq, if_neg (by omega)] at h
  rw [← Except.ok.inj h]
  exact hregular.parse?_render hoffset

/-- The row of a reading: its texts as they are, its numbers without exponents, and the RFC 3339 text
of its time. -/
inductive Tells (r : Reading) : List String → Prop where
  | row {distance lat latScale long longScale time : String} (hdistance : Spells distance r.distance)
      (hlat : Spells lat r.lat) (hlatScale : Spells latScale r.latScale) (hlong : Spells long r.long)
      (hlongScale : Spells longScale r.longScale) (htime : Dates time r.receivedAt) :
      Tells r [r.id, distance, lat, latScale, long, longScale, r.gpsMessage, r.source, time]

/-- The text is a table with the header and one row for each reading, in order. -/
def Told (readings : List Reading) (text : String) : Prop :=
  ∃ rows, Csv.read? text = some (columns :: rows) ∧ List.Forall₂ Tells readings rows

theorem record_of_text {r : Reading} {time : String} (h : r.receivedAt.text = .ok time) :
    ∃ row, record r = .ok row ∧ Tells r row := by
  refine ⟨_, ?_, .row (number_spells r.distance) (number_spells r.lat) (number_spells r.latScale)
    (number_spells r.long) (number_spells r.longScale) (dates_of_text h)⟩
  rw [record, h]
  rfl

theorem record_of_error {r : Reading} {why : Time.Instant.Unwritable} (h : r.receivedAt.text = .error why) :
    record r = .error why := by
  rw [record, h]
  rfl

theorem records_cons (r : Reading) (rest : List Reading) : records (r :: rest) = precede (record r) (records rest) :=
  List.foldr_cons

theorem records_of_writable {readings : List Reading} (h : ∀ r ∈ readings, r.receivedAt.Writable) :
    ∃ rows, records readings = (rows, none) ∧ List.Forall₂ Tells readings rows := by
  induction readings with
  | nil => exact ⟨[], rfl, .nil⟩
  | cons r rest ih =>
    obtain ⟨hr, hrest⟩ := List.forall_mem_cons.mp h
    obtain ⟨time, htime⟩ := Time.Instant.text_ok_iff.mpr hr
    obtain ⟨row, hrow, htells⟩ := record_of_text htime
    obtain ⟨rows, hrows, hall⟩ := ih hrest
    refine ⟨row :: rows, ?_, .cons htells hall⟩
    rw [records_cons, hrow, hrows, precede]

/-- The records end before the first reading whose time cannot be written. -/
theorem records_of_unwritable {readings : List Reading} (h : ¬ ∀ r ∈ readings, r.receivedAt.Writable) :
    ∃ before r after rows why, readings = before ++ r :: after ∧ r.receivedAt.text = .error why ∧
      List.Forall₂ Tells before rows ∧ records readings = (rows, some why) := by
  induction readings with
  | nil => exact absurd (fun _ hr => absurd hr List.not_mem_nil) h
  | cons first rest ih =>
    cases hfirst : first.receivedAt.text with
    | error why =>
      refine ⟨[], first, rest, [], why, rfl, hfirst, .nil, ?_⟩
      rw [records_cons, record_of_error hfirst, precede]
    | ok time =>
      have hwritable := Time.Instant.text_ok_iff.mp ⟨time, hfirst⟩
      have hrest : ¬ ∀ r ∈ rest, r.receivedAt.Writable :=
        fun hrest => h (List.forall_mem_cons.mpr ⟨hwritable, hrest⟩)
      obtain ⟨before, r, after, rows, why, rfl, hr, hall, hrows⟩ := ih hrest
      obtain ⟨row, hrow, htells⟩ := record_of_text hfirst
      refine ⟨first :: before, r, after, row :: rows, why, rfl, hr, .cons htells hall, ?_⟩
      rw [records_cons, hrow, hrows, precede]

theorem ne_nil_of_tells {readings : List Reading} {rows : List (List String)} (h : List.Forall₂ Tells readings rows) :
    ∀ row ∈ rows, row ≠ [] := by
  induction h with
  | nil => exact fun _ hrow => absurd hrow List.not_mem_nil
  | cons htells _ ih =>
    refine List.forall_mem_cons.mpr ⟨?_, ih⟩
    cases htells
    exact List.cons_ne_nil _ _

theorem writable_of_tells {readings : List Reading} {rows : List (List String)} (h : List.Forall₂ Tells readings rows) :
    ∀ r ∈ readings, r.receivedAt.Writable := by
  induction h with
  | nil => exact fun _ hr => absurd hr List.not_mem_nil
  | cons htells _ ih =>
    refine List.forall_mem_cons.mpr ⟨?_, ih⟩
    cases htells with
    | row _ _ _ _ _ htime => exact Time.Instant.text_ok_iff.mp ⟨_, htime.written⟩

theorem told_render {readings : List Reading} {rows : List (List String)} (h : List.Forall₂ Tells readings rows) :
    Told readings (Csv.render (columns :: rows)) :=
  ⟨rows, Csv.read?_render (List.forall_mem_cons.mpr ⟨by decide, ne_nil_of_tells h⟩), h⟩

theorem csv_of_ne_nil {readings : List Reading} (h : readings ≠ []) :
    csv readings = (Csv.render (columns :: (records readings).1), (records readings).2) :=
  if_neg (by simpa using h)

theorem csv_of_writable {readings : List Reading} (hne : readings ≠ []) (h : ∀ r ∈ readings, r.receivedAt.Writable) :
    ∃ text, csv readings = (text, none) ∧ Told readings text := by
  obtain ⟨rows, hrows, hall⟩ := records_of_writable h
  refine ⟨_, ?_, told_render hall⟩
  rw [csv_of_ne_nil hne, hrows]

theorem csv_complete {readings : List Reading} (h : ∀ r ∈ readings, r.receivedAt.Writable) :
    (csv readings).2 = none := by
  by_cases hne : readings = []
  · rw [hne]
    rfl
  · obtain ⟨text, hcsv, -⟩ := csv_of_writable hne h
    rw [hcsv]

/-- A table that breaks off tells of the readings before the one it breaks off at. -/
theorem csv_of_unwritable {readings : List Reading} (h : ¬ ∀ r ∈ readings, r.receivedAt.Writable) :
    ∃ before r after text why, readings = before ++ r :: after ∧ r.receivedAt.text = .error why ∧
      csv readings = (text, some why) ∧ Told before text := by
  obtain ⟨before, r, after, rows, why, hreadings, hr, hall, hrows⟩ := records_of_unwritable h
  refine ⟨before, r, after, _, why, hreadings, hr, ?_, told_render hall⟩
  have hne : readings ≠ [] := by
    rw [hreadings]
    simp
  rw [csv_of_ne_nil hne, hrows]

theorem not_told_empty (readings : List Reading) : ¬ Told readings "" := by
  rintro ⟨rows, hread, -⟩
  have hempty : Csv.read? "" = some [] := rfl
  rw [hempty] at hread
  cases hread

end History

namespace Web

open History

variable {σ : Type}

/-- The headers of a table. -/
def tableHeaders (id contentType : String) : List (String × String) :=
  [("Content-Type", contentType), ("Content-Disposition", "attachment; filename=\"" ++ fileName id ++ "\"")]

def tableType : String := "text/csv; charset=utf-8"

/-- What is written when a table breaks off. -/
def breakDocument (why : Time.Instant.Unwritable) : String :=
  (Json.object [("error", .ofText (encodeMessage why))]).indented ++ "\n"

/-- What a client gets that asks for the readings of a device as a table. -/
structure Downloaded (id : String) (readings : List Reading) (response : Response) : Prop where
  told : Told readings response.body ↔ readings ≠ [] ∧ ∀ r ∈ readings, r.receivedAt.Writable
  complete (h : ∀ r ∈ readings, r.receivedAt.Writable) :
    response.status = 200 ∧ response.headers = tableHeaders id tableType
  /-- The status tells of the failure only if nothing has left before it. -/
  broken (h : ¬ ∀ r ∈ readings, r.receivedAt.Writable) :
    ∃ before r after text why, readings = before ++ r :: after ∧ r.receivedAt.text = .error why ∧
      Told before text ∧ response =
        if sent text = "" then ⟨500, tableHeaders id jsonType, breakDocument why⟩
        else ⟨200, tableHeaders id tableType, sent text ++ breakDocument why⟩

namespace MapApi

theorem historyTable_writes (visit : Visit) {s : Fleet.State σ} {id : String} {readings : List Reading}
    (h : s.tracker.history? id = some readings) :
    (historyTable (Text.Utf8.ofString id) visit s).2.writes = (tableWrites id readings).1 := by
  simp only [historyTable, ofDevice, Text.Utf8.valid?_ofString, Fleet.Service.history, h]
  rcases tableWrites id readings with ⟨writes, _ | why⟩ <;> rfl

theorem ofWrites_complete (id : String) {readings : List Reading} {text : String} (h : csv readings = (text, none)) :
    Response.ofWrites (tableWrites id readings).1 = ⟨200, tableHeaders id tableType, text⟩ := by
  simp only [tableWrites, h]
  simp [Response.ofWrites, Draft.write, Draft.commit, Draft.response, setHeader, tableHeaders, tableType]

theorem ofWrites_broken (id : String) {readings : List Reading} {text : String} {why : Time.Instant.Unwritable}
    (h : csv readings = (text, some why)) : Response.ofWrites (tableWrites id readings).1 =
      if sent text = "" then ⟨500, tableHeaders id jsonType, breakDocument why⟩
      else ⟨200, tableHeaders id tableType, sent text ++ breakDocument why⟩ := by
  simp only [tableWrites, h, errorReply, jsonReply]
  split_ifs with hsent <;>
    simp [Response.ofWrites, Draft.write, Draft.commit, Draft.response, setHeader, tableHeaders, tableType,
      breakDocument]

end MapApi

theorem told_tableWrites_iff (id : String) (readings : List Reading) :
    Told readings (Response.ofWrites (MapApi.tableWrites id readings).1).body ↔
      readings ≠ [] ∧ ∀ r ∈ readings, r.receivedAt.Writable := by
  constructor
  · intro htold
    refine ⟨?_, ?_⟩
    · rintro rfl
      have hempty : csv [] = ("", none) := rfl
      rw [MapApi.ofWrites_complete id hempty] at htold
      exact not_told_empty [] htold
    · obtain ⟨rows, -, hall⟩ := htold
      exact writable_of_tells hall
  · rintro ⟨hne, hall⟩
    obtain ⟨text, hcsv, htold⟩ := csv_of_writable hne hall
    rwa [MapApi.ofWrites_complete id hcsv]

theorem downloaded (id : String) (readings : List Reading) :
    Downloaded id readings (Response.ofWrites (MapApi.tableWrites id readings).1) := by
  refine ⟨told_tableWrites_iff id readings, fun hall => ?_, fun hnot => ?_⟩
  · rw [MapApi.ofWrites_complete id (Prod.ext rfl (csv_complete hall))]
    exact ⟨rfl, rfl⟩
  · obtain ⟨before, r, after, text, why, hreadings, hr, hcsv, htold⟩ := csv_of_unwritable hnot
    exact ⟨before, r, after, text, why, hreadings, hr, htold, MapApi.ofWrites_broken id hcsv⟩

/-- The download of a device's history tells all of it, whatever texts the device has sent, exactly
if every time in it can be written. In use there is no device without a reading. -/
theorem download_tells_history_iff :
    (∀ (visit : Visit) (s : Fleet.State σ) (id : String) (readings : List Reading),
      s.tracker.history? id = some readings → Downloaded id readings
        (Response.ofWrites (MapApi.historyTable (Text.Utf8.ofString id) visit s).2.writes)) ∧
    ∀ (v : Fleet.Service σ) (world : σ) (journal : Journal) (requests : List Fleet.Request) (id : String),
      (v.run requests (.fresh world journal)).1.tracker.history? id ≠ some [] := by
  constructor
  · intro visit s id readings h
    rw [MapApi.historyTable_writes visit h]
    exact downloaded id readings
  · intro v world journal requests id h
    have hreflects := Fleet.Reflects.run v requests (.fresh world journal) (.empty v.settings)
    exact ((hreflects.history_iff id []).mp h).2 rfl

namespace Downloading

def service : Fleet.Service Unit where
  settings := ⟨100.0, 80.0, false⟩
  readClock w := (⟨1641816000, 0, 0⟩, w)
  listeners := []
  resolver := none

/-- A device whose id is a line of its own, with a comma and quotes. -/
def awkwardId : String := " \"7\",\r\n8"

/-- Two readings whose texts look like parts of a table. -/
def awkward : List Fleet.Request :=
  [.ingest {} ⟨awkwardId, 1e21, 3130.0, 1.0, 5260.0, 1.0, "\"\"\r\n,", "a,\"b\nc", ⟨1641816000, 5, 19800⟩⟩,
    .ingest {} ⟨awkwardId, 0.0000001, -3130.0, 1.0, 5260.0, -1.0, "", "\"", .zero⟩]

/-- What a device sends with a time at an offset of a day. -/
def dayOffset : List Fleet.Request :=
  [.message {} (Text.Utf8.encode (List.flatMap String.toList
    ["\x7b\"id\":\"7\",\"distance\":50,\"lat\":3130,\"lat_scale\":1,", "\"long\":5260,\"long_scale\":1,",
      "\"received_at\":\"2022-01-10T12:00:00+24:00\"\x7d"]))]

def state (requests : List Fleet.Request) : Fleet.State Unit := (service.run requests (.fresh () {})).1

/-- The download of a device after some requests. -/
def download (requests : List Fleet.Request) (id : String) (visit : Visit) : Response :=
  Response.ofWrites (MapApi.historyTable (Text.Utf8.ofString id) visit (state requests)).2.writes

/-- The rows of the two readings are read from the table as they are. -/
theorem awkward_texts_are_told :
    ∃ readings, (state awkward).tracker.history? awkwardId = some readings ∧
      readings.map (fun r => (r.id, r.gpsMessage, r.source, r.receivedAt)) =
        [(awkwardId, "\"\"\r\n,", "a,\"b\nc", ⟨1641816000, 5, 19800⟩), (awkwardId, "", "\"", ⟨1641816000, 0, 0⟩)] ∧
      ∀ visit, (download awkward awkwardId visit).status = 200 ∧
        Told readings (download awkward awkwardId visit).body := by
  have hhistory : ((state awkward).tracker.history? awkwardId).map
      (·.map fun r => (r.id, r.gpsMessage, r.source, r.receivedAt)) =
        some [(awkwardId, "\"\"\r\n,", "a,\"b\nc", ⟨1641816000, 5, 19800⟩),
          (awkwardId, "", "\"", ⟨1641816000, 0, 0⟩)] := by
    decide +kernel
  obtain ⟨readings, hreadings, htexts⟩ := Option.map_eq_some_iff.mp hhistory
  have hne : readings ≠ [] := by
    rintro rfl
    cases htexts
  have hwritable : ∀ r ∈ readings, r.receivedAt.Writable := by
    have htimes : readings.map (·.receivedAt) = [⟨1641816000, 5, 19800⟩, ⟨1641816000, 0, 0⟩] := by
      have htimes := congrArg (List.map fun texts => texts.2.2.2) htexts
      rw [List.map_map] at htimes
      exact htimes
    intro r hr
    have hmem := List.mem_map_of_mem hr (f := (·.receivedAt))
    rw [htimes] at hmem
    simp only [List.mem_cons, List.not_mem_nil, or_false] at hmem
    rcases hmem with htime | htime
    · rw [htime]
      exact ⟨by decide +kernel, by decide⟩
    · rw [htime]
      exact ⟨by decide +kernel, by decide⟩
  refine ⟨readings, hreadings, htexts, fun visit => ?_⟩
  have hdownloaded := download_tells_history_iff.1 visit (state awkward) awkwardId readings hreadings
  exact ⟨(hdownloaded.complete hwritable).1, hdownloaded.told.mpr ⟨hne, hwritable⟩⟩

/-- A reading at an offset of a day is kept, and the history with it cannot be had. -/
theorem day_offset_breaks_download :
    ∃ r, (state dayOffset).tracker.history? "7" = some [r] ∧ r.receivedAt.offset = 86400 ∧
      ∀ visit, (download dayOffset "7" visit).status = 500 ∧ ¬ Told [r] (download dayOffset "7" visit).body := by
  have hhistory : ((state dayOffset).tracker.history? "7").map (·.map (·.receivedAt.offset)) = some [86400] := by
    decide +kernel
  have hstatus : (Response.ofWrites
      (MapApi.tableWrites "7" (((state dayOffset).tracker.history? "7").getD [])).1).status = 500 := by
    decide +kernel
  obtain ⟨readings, hreadings, hoffsets⟩ := Option.map_eq_some_iff.mp hhistory
  obtain ⟨r, rfl, hoffset⟩ := List.map_eq_singleton_iff.mp hoffsets
  rw [hreadings, Option.getD_some] at hstatus
  refine ⟨r, hreadings, hoffset, fun visit => ?_⟩
  rw [download, MapApi.historyTable_writes visit hreadings]
  refine ⟨hstatus, fun htold => ?_⟩
  have hwritable := ((downloaded "7" [r]).told.mp htold).2 r List.mem_cons_self
  have := hwritable.offset
  omega

end Downloading

end Web

end BinFleet
