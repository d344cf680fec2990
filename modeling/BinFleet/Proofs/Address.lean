import BinFleet.Address
import Mathlib.Data.List.Induction
import Mathlib.Tactic.Common

namespace BinFleet

/-- A call for the address of a position, with what a request for it would come to. -/
structure Inquiry where
  context : LogContext := {}
  lng : Float
  lat : Float
  exchange : Exchange

def Inquiry.key (q : Inquiry) : String := AddressBook.placeKey q.lng q.lat

/-- A call and what it came to. -/
abbrev AddressCall := Inquiry × AddressLookup

namespace AddressBook

def ask (b : AddressBook) (q : Inquiry) : AddressBook × AddressLookup := b.lookup q.context q.lng q.lat q.exchange

/-- What a call can do. -/
inductive Looked (b : AddressBook) (q : Inquiry) : AddressBook → AddressLookup → Prop where
  | known {address : String} (h : b.find? q.key = some address) : Looked b q b ⟨none, .ok address⟩
  | learned {address : String} (h : b.find? q.key = none)
      (hread : read q.context (b.requestUrl q.lng q.lat) q.exchange = .ok address) :
      Looked b q { b with known := (q.key, address) :: b.known } ⟨some (b.requestUrl q.lng q.lat), .ok address⟩
  | failed {f : Fault} (h : b.find? q.key = none)
      (hread : read q.context (b.requestUrl q.lng q.lat) q.exchange = .error f) :
      Looked b q b ⟨some (b.requestUrl q.lng q.lat), .error f⟩

theorem ask_looked {b : AddressBook} (hkey : b.apiKey ≠ "") (q : Inquiry) :
    Looked b q (b.ask q).1 (b.ask q).2 := by
  have hplace : placeKey q.lng q.lat = q.key := rfl
  simp only [ask, lookup, if_neg hkey, hplace]
  cases hfind : b.find? q.key with
  | some address => exact .known hfind
  | none =>
    cases hread : read q.context (b.requestUrl q.lng q.lat) q.exchange with
    | ok address => exact .learned hfind hread
    | error f => exact .failed hfind hread

/-- What is known has no part in a request. -/
theorem requestUrl_of_apiKey {b : AddressBook} {apiKey : String} (h : b.apiKey = apiKey) (lng lat : Float) :
    b.requestUrl lng lat = requestUrl ⟨apiKey, []⟩ lng lat := by
  subst h
  rfl

theorem find?_cons (apiKey : String) (known : List (String × String)) (key key' address : String) :
    find? ⟨apiKey, (key', address) :: known⟩ key = if key' = key then some address else find? ⟨apiKey, known⟩ key := by
  rw [find?, List.find?_cons]
  by_cases h : key' = key
  · rw [if_pos h, beq_iff_eq.mpr h, Option.map_some]
  · rw [if_neg h, beq_eq_false_iff_ne.mpr h, find?]

theorem find?_eq_none {b : AddressBook} {key : String} (h : b.find? key = none) : key ∉ b.known.map (·.1) := by
  intro hmem
  obtain ⟨⟨_, address⟩, hentry, rfl⟩ := List.mem_map.mp hmem
  rw [find?, Option.map_eq_none_iff] at h
  exact absurd (beq_self_eq_true _) (List.find?_eq_none.mp h _ hentry)

theorem find?_eq_some_iff {b : AddressBook} (hunique : (b.known.map (·.1)).Nodup) {key address : String} :
    b.find? key = some address ↔ (key, address) ∈ b.known := by
  obtain ⟨apiKey, known⟩ := b
  induction known with
  | nil => exact iff_of_false (fun h => nomatch h) List.not_mem_nil
  | cons entry rest ih =>
    obtain ⟨key', address'⟩ := entry
    obtain ⟨hnew, hrest⟩ := List.nodup_cons.mp hunique
    rw [find?_cons, List.mem_cons, Prod.mk.injEq]
    split_ifs with hkey
    · subst hkey
      have hout : (key', address) ∉ rest := fun hmem => hnew (List.mem_map.mpr ⟨_, hmem, rfl⟩)
      simp [hout, eq_comm]
    · rw [ih hrest]
      simp [Ne.symm hkey]

end AddressBook

/-- The book, and the calls so far. -/
structure AddressSession where
  book : AddressBook
  calls : List AddressCall := []

namespace AddressSession

open AddressBook

def ask (s : AddressSession) (q : Inquiry) : AddressSession :=
  ⟨(s.book.ask q).1, s.calls ++ [(q, (s.book.ask q).2)]⟩

/-- One call after the other, with nothing known at first. -/
def after (apiKey : String) (inquiries : List Inquiry) : AddressSession := inquiries.foldl ask ⟨⟨apiKey, []⟩, []⟩

theorem after_concat (apiKey : String) (inquiries : List Inquiry) (q : Inquiry) :
    after apiKey (inquiries ++ [q]) = (after apiKey inquiries).ask q := by
  rw [after, List.foldl_append]
  rfl

/-- Later calls leave the log of the earlier ones as it is. -/
theorem foldl_ask_calls (s : AddressSession) (inquiries : List Inquiry) :
    ∃ rest, (inquiries.foldl ask s).calls = s.calls ++ rest := by
  induction inquiries generalizing s with
  | nil => exact ⟨[], (List.append_nil _).symm⟩
  | cons q later ih =>
    obtain ⟨rest, hrest⟩ := ih (s.ask q)
    refine ⟨(q, (s.book.ask q).2) :: rest, ?_⟩
    rw [List.foldl_cons, hrest, ask, List.append_assoc, List.singleton_append]

/-- Each call is in the log with what it came to when it was made. -/
theorem after_calls (apiKey : String) (before later : List Inquiry) (q : Inquiry) :
    ∃ rest, (after apiKey (before ++ q :: later)).calls =
      (after apiKey before).calls ++ (q, ((after apiKey before).book.ask q).2) :: rest := by
  obtain ⟨rest, hrest⟩ := foldl_ask_calls ((after apiKey before).ask q) later
  refine ⟨rest, ?_⟩
  rw [after, List.foldl_append, List.foldl_cons]
  refine hrest.trans ?_
  rw [ask, List.append_assoc, List.singleton_append]

end AddressSession

open AddressBook

/-- The address that a call gave for a rounded position. -/
def addressAt? (key : String) (c : AddressCall) : Option String :=
  if c.1.key = key then c.2.result.toOption else none

/-- What the first call came to that succeeded at a rounded position. -/
def firstAddress? (key : String) (calls : List AddressCall) : Option String := calls.findSome? (addressAt? key)

/-- Whether a call had a request answered successfully for a rounded position. -/
def isServed (key : String) (c : AddressCall) : Bool := c.2.request.isSome && (addressAt? key c).isSome

theorem firstAddress?_concat (key : String) (calls : List AddressCall) (c : AddressCall) :
    firstAddress? key (calls ++ [c]) = (firstAddress? key calls).or (addressAt? key c) := by
  rw [firstAddress?, List.findSome?_append, List.findSome?_singleton]
  rfl

/-- The book goes by the first success at each rounded position. -/
structure Remembers (apiKey : String) (s : AddressSession) : Prop where
  apiKey : s.book.apiKey = apiKey
  unique : (s.book.known.map (·.1)).Nodup
  first (key : String) : s.book.find? key = firstAddress? key s.calls
  /-- No call has got another address than the first. -/
  agree (key address : String) (c : AddressCall) (hc : c ∈ s.calls) (h : addressAt? key c = some address) :
    firstAddress? key s.calls = some address
  served (key : String) : s.calls.countP (isServed key) = (firstAddress? key s.calls).toList.length

namespace Remembers

variable {apiKey : String} {s : AddressSession}

theorem nothing (apiKey : String) : Remembers apiKey ⟨⟨apiKey, []⟩, []⟩ where
  apiKey := rfl
  unique := List.nodup_nil
  first _ := rfl
  agree _ _ _ hc _ := absurd hc List.not_mem_nil
  served _ := rfl

/-- A call that sends no request or fails at it brings nothing new. -/
theorem repeated (h : Remembers apiKey s) {c : AddressCall} (hserved : ∀ key, isServed key c = false)
    (hc : ∀ key address, addressAt? key c = some address → firstAddress? key s.calls = some address) :
    Remembers apiKey ⟨s.book, s.calls ++ [c]⟩ := by
  have hsame (key : String) : firstAddress? key (s.calls ++ [c]) = firstAddress? key s.calls := by
    rw [firstAddress?_concat]
    cases haddress : addressAt? key c with
    | none => exact Option.or_none
    | some address => rw [hc key address haddress, Option.some_or]
  refine ⟨h.apiKey, h.unique, fun key => ?_, fun key address c' hc' haddress => ?_, fun key => ?_⟩
  · rw [hsame]
    exact h.first key
  · rw [hsame]
    rcases List.mem_append.mp hc' with hold | hnew
    · exact h.agree key address c' hold haddress
    · rw [List.mem_singleton.mp hnew] at haddress
      exact hc key address haddress
  · rw [hsame, List.countP_append, h.served, List.countP_singleton, hserved]
    rfl

/-- A call that succeeds where none has before is the first at its place. -/
theorem learned (h : Remembers apiKey s) {q : Inquiry} {url address : String} (hfind : s.book.find? q.key = none) :
    Remembers apiKey ⟨{ s.book with known := (q.key, address) :: s.book.known },
      s.calls ++ [(q, ⟨some url, .ok address⟩)]⟩ := by
  have hat (key : String) :
      addressAt? key (q, ⟨some url, .ok address⟩) = if q.key = key then some address else none := rfl
  have hnone : firstAddress? q.key s.calls = none := (h.first q.key).symm.trans hfind
  refine ⟨h.apiKey, List.nodup_cons.mpr ⟨find?_eq_none hfind, h.unique⟩, fun key => ?_,
    fun key address' c' hc' haddress => ?_, fun key => ?_⟩
  · rw [find?_cons, firstAddress?_concat, hat]
    split_ifs with hkey
    · rw [← hkey, hnone, Option.none_or]
    · rw [Option.or_none]
      exact h.first key
  · rw [firstAddress?_concat]
    rcases List.mem_append.mp hc' with hold | hnew
    · rw [h.agree key address' c' hold haddress, Option.some_or]
    · rw [List.mem_singleton.mp hnew] at haddress
      have hkey : q.key = key := by
        by_contra hkey
        rw [hat, if_neg hkey] at haddress
        cases haddress
      rw [haddress, ← hkey, hnone, Option.none_or]
  · rw [List.countP_append, h.served, List.countP_singleton, firstAddress?_concat, isServed, hat]
    by_cases hkey : q.key = key
    · rw [if_pos hkey, ← hkey, hnone]
      rfl
    · rw [if_neg hkey, Option.or_none]
      rfl

theorem ask (h : Remembers apiKey s) (hkey : apiKey ≠ "") (q : Inquiry) : Remembers apiKey (s.ask q) := by
  have hlooked := ask_looked (h.apiKey ▸ hkey) q
  rw [AddressSession.ask]
  generalize (s.book.ask q).1 = b at hlooked
  generalize (s.book.ask q).2 = l at hlooked
  cases hlooked with
  | @known address hfind =>
    refine h.repeated (fun key => rfl) fun key address' haddress => ?_
    have hsame : q.key = key ∧ address = address' := by
      simpa [addressAt?, Except.toOption] using haddress
    rw [← hsame.1, ← hsame.2, ← h.first, hfind]
  | learned hfind _ => exact h.learned hfind
  | @failed f hfind _ =>
    have hnothing (key : String) : addressAt? key (q, ⟨some (s.book.requestUrl q.lng q.lat), .error f⟩) = none := by
      simp [addressAt?, Except.toOption]
    refine h.repeated (fun key => ?_) fun key address haddress => ?_
    · rw [isServed, hnothing]
      rfl
    · rw [hnothing] at haddress
      cases haddress

theorem after (hkey : apiKey ≠ "") (inquiries : List Inquiry) : Remembers apiKey (.after apiKey inquiries) := by
  induction inquiries using List.reverseRecOn with
  | nil => exact nothing apiKey
  | append_singleton inquiries q ih =>
    rw [AddressSession.after_concat]
    exact ih.ask hkey q

theorem isSome_firstAddress? (h : Remembers apiKey s) (key : String) :
    (∃ address, firstAddress? key s.calls = some address) ↔
      ∃ c ∈ s.calls, ∃ address, addressAt? key c = some address := by
  constructor
  · rintro ⟨address, hfirst⟩
    obtain ⟨c, hc, haddress⟩ := List.exists_of_findSome?_eq_some hfirst
    exact ⟨c, hc, address, haddress⟩
  · rintro ⟨c, hc, address, haddress⟩
    exact ⟨address, h.agree key address c hc haddress⟩

end Remembers

/-- How a call goes after others, and what it makes of the book. -/
structure Consistent (apiKey : String) (s : AddressSession) (q : Inquiry) (b : AddressBook) (l : AddressLookup) :
    Prop where
  silent : l.request = none ↔ ∃ c ∈ s.calls, ∃ address, addressAt? q.key c = some address
  same (c : AddressCall) (hc : c ∈ s.calls) (address : String) (h : addressAt? q.key c = some address) :
    l.result = .ok address
  /-- The position is not rounded in a request. -/
  asked (url : String) (h : l.request = some url) :
    url = requestUrl ⟨apiKey, []⟩ q.lng q.lat ∧ l.result = read q.context url q.exchange
  failed (f : Fault) (h : l.result = .error f) : b = s.book

namespace Remembers

variable {apiKey : String} {s : AddressSession} {q : Inquiry} {b : AddressBook} {l : AddressLookup}

/-- A call that sends a request is the first to succeed at its place, if it does. -/
theorem consistent_of_request (h : Remembers apiKey s) (hfind : s.book.find? q.key = none)
    (hrequest : l.request = some (s.book.requestUrl q.lng q.lat))
    (hresult : l.result = read q.context (s.book.requestUrl q.lng q.lat) q.exchange)
    (hfailed : ∀ f, l.result = .error f → b = s.book) : Consistent apiKey s q b l := by
  have hnone : ¬ ∃ c ∈ s.calls, ∃ address, addressAt? q.key c = some address := by
    rw [← h.isSome_firstAddress?, ← h.first, hfind]
    rintro ⟨_, hsome⟩
    cases hsome
  refine ⟨?_, fun c hc address haddress => absurd ⟨c, hc, address, haddress⟩ hnone, fun url hurl => ?_, hfailed⟩
  · rw [hrequest]
    exact iff_of_false (Option.some_ne_none _) hnone
  · have hsent : s.book.requestUrl q.lng q.lat = url := Option.some.inj (hrequest.symm.trans hurl)
    rw [hsent] at hresult
    refine ⟨?_, hresult⟩
    exact hsent.symm.trans (requestUrl_of_apiKey h.apiKey q.lng q.lat)

theorem consistent (h : Remembers apiKey s) (hlooked : Looked s.book q b l) : Consistent apiKey s q b l := by
  cases hlooked with
  | @known address hfind =>
    have hfirst : firstAddress? q.key s.calls = some address := (h.first q.key).symm.trans hfind
    refine ⟨iff_of_true rfl ((h.isSome_firstAddress? q.key).mp ⟨address, hfirst⟩), fun c hc address' haddress => ?_,
      (fun _ hrequest => nomatch hrequest), (fun _ hresult => nomatch hresult)⟩
    have hagree := h.agree q.key address' c hc haddress
    rw [Option.some.inj (hfirst.symm.trans hagree)]
  | learned hfind hread => exact h.consistent_of_request hfind rfl hread.symm fun _ hresult => nomatch hresult
  | failed hfind hread => exact h.consistent_of_request hfind rfl hread.symm fun _ _ => rfl

end Remembers

/-- After any calls the book holds the first success at each rounded position and nothing else, and
each of the calls went by the ones before it. -/
theorem book_holds_first_successes {apiKey : String} (hkey : apiKey ≠ "") (inquiries : List Inquiry) :
    ((AddressSession.after apiKey inquiries).book.known.map (·.1)).Nodup ∧
    (∀ key address, (key, address) ∈ (AddressSession.after apiKey inquiries).book.known ↔
      firstAddress? key (AddressSession.after apiKey inquiries).calls = some address) ∧
    (∀ key, (AddressSession.after apiKey inquiries).calls.countP (isServed key) ≤ 1) ∧
    ∀ before q later, inquiries = before ++ q :: later → ∃ b l rest,
      (AddressSession.after apiKey before).book.ask q = (b, l) ∧
      (AddressSession.after apiKey inquiries).calls = (AddressSession.after apiKey before).calls ++ (q, l) :: rest ∧
      Consistent apiKey (.after apiKey before) q b l := by
  have hafter := Remembers.after hkey inquiries
  refine ⟨hafter.unique, fun key address => ?_, fun key => ?_, fun before q later hsplit => ?_⟩
  · rw [← hafter.first, find?_eq_some_iff hafter.unique]
  · rw [hafter.served]
    cases firstAddress? key (AddressSession.after apiKey inquiries).calls with
    | none => exact Nat.zero_le 1
    | some address => exact Nat.le_refl 1
  · have hbefore := Remembers.after hkey before
    have hkey' : (AddressSession.after apiKey before).book.apiKey ≠ "" := by
      rw [hbefore.apiKey]
      exact hkey
    obtain ⟨rest, hrest⟩ := AddressSession.after_calls apiKey before later q
    rw [← hsplit] at hrest
    exact ⟨_, _, rest, rfl, hrest, hbefore.consistent (ask_looked hkey' q)⟩

namespace Errand

def answer (text : String) : Exchange := .answered 200 (Text.Utf8.ofString text)

/-- Three ways to fail, a success, and a call from a hand's breadth away. -/
def inquiries : List Inquiry :=
  [⟨{}, 53.0, 31.5, .failed "no route"⟩, ⟨{}, 53.0, 31.5, .answered 429 []⟩, ⟨{}, 53.0, 31.5, answer "[]"⟩,
    ⟨{}, 53.0, 31.5, answer "\x7b\"display_name\":\"Yard 7\"\x7d"⟩]

def nearby : Inquiry := ⟨{}, 53.000001, 31.499999, answer "\x7b\"display_name\":\"Yard 8\"\x7d"⟩

/-- The neighbour is told what was learned before, and only one request was answered well. -/
theorem neighbour_gets_first_address :
    "k" ≠ "" ∧ (AddressSession.after "k" inquiries).book.known = [("31.50000,53.00000", "Yard 7")] ∧
      firstAddress? "31.50000,53.00000" (AddressSession.after "k" inquiries).calls = some "Yard 7" ∧
      ((AddressSession.after "k" inquiries).book.ask nearby).2 = ⟨none, .ok "Yard 7"⟩ ∧
      (AddressSession.after "k" (inquiries ++ [nearby])).calls.countP (isServed nearby.key) = 1 := by
  have hkey : "k" ≠ "" := by decide
  have hknown : (AddressSession.after "k" inquiries).book.known = [("31.50000,53.00000", "Yard 7")] := by
    decide +kernel
  have hplace : nearby.key = "31.50000,53.00000" := by decide +kernel
  have hserved : 1 ≤ (AddressSession.after "k" (inquiries ++ [nearby])).calls.countP (isServed nearby.key) := by
    decide +kernel
  obtain ⟨-, hfirst, -, -⟩ := book_holds_first_successes hkey inquiries
  have hyard := (hfirst "31.50000,53.00000" "Yard 7").mp (hknown ▸ List.mem_singleton_self _)
  obtain ⟨-, -, hcount, hcalls⟩ := book_holds_first_successes hkey (inquiries ++ [nearby])
  obtain ⟨b, l, -, hask, -, hconsistent⟩ := hcalls inquiries nearby [] rfl
  obtain ⟨c, hc, haddress⟩ := List.exists_of_findSome?_eq_some hyard
  rw [← hplace] at haddress
  have hrequest : l.request = none := hconsistent.silent.mpr ⟨c, hc, _, haddress⟩
  have hresult : l.result = .ok "Yard 7" := hconsistent.same c hc _ haddress
  refine ⟨hkey, hknown, hyard, ?_, Nat.le_antisymm (hcount nearby.key) hserved⟩
  rw [hask]
  change l = _
  rw [← hrequest, ← hresult]

end Errand

end BinFleet
