import BinFleet.Proofs.Access.Credentials
import BinFleet.Proofs.Json.Value
import BinFleet.Proofs.Number.Whole

namespace BinFleet.Access

open Json Number Number.Double

namespace Claims

/-- A whole number of seconds has no part below a second. -/
theorem secondsOfFloat_whole {x : Float} {n : ℤ} (h : Denotes x n) (hn : n.natAbs ≤ 2 ^ 53) : secondsOfFloat x = n := by
  obtain ⟨htrunc, hwhole⟩ := h.whole
  have hrest : Denotes (x - x) (0 : ℤ) := by
    apply Within.denotes
    exact (h.sub h).within (by decide) (by decide) (by simp) (by simp)
  have hscale : Denotes 1e9 1000000000 := ⟨false, ⟨8388608000000000, -23⟩, by decide, by norm_num [signed, Scaled.value]⟩
  have hnanos : Denotes ((x - x) * 1e9) (0 : ℤ) := by
    apply Within.denotes
    exact (hrest.mul hscale).within (by decide) (by decide) (by simp) (by simp)
  have hrange : -(Int.pow 2 63) ≤ n ∧ n < Int.pow 2 63 := by
    have : Int.pow 2 63 = 9223372036854775808 := by decide
    omega
  have hcounted : Time.Instant.counted n = n := by
    have : Nat.pow 2 64 = 18446744073709551616 := by decide
    unfold Time.Instant.counted
    rw [this, Int.bmod_eq_of_le (by simp only [Time.Instant.zero]; omega) (by simp only [Time.Instant.zero]; omega)]
    omega
  unfold secondsOfFloat
  simp only [htrunc, leftInverse_toFloat x, hwhole, hnanos.whole.2, Option.getD_some, if_pos hrange, lt_self_iff_false,
    if_false, hcounted]

theorem toDate_ofInt {n : ℤ} (h : n.natAbs ≤ 2 ^ 53) : toDate (.ofInt n) = .ok (some n) := by
  obtain ⟨x, hread, hx⟩ := read_toString h
  simp only [ofInt, toDate, hread, secondsOfFloat_whole hx h]

/-- All dates are numbers of seconds that a double counts one by one. -/
structure Datable (c : Claims) : Prop where
  expiresAt : ∀ n, c.expiresAt = some n → n.natAbs ≤ 2 ^ 53
  notBefore : ∀ n, c.notBefore = some n → n.natAbs ≤ 2 ^ 53
  issuedAt : ∀ n, c.issuedAt = some n → n.natAbs ≤ 2 ^ 53

theorem setField_keys (c : Claims) (v : Json) :
    c.setField (unescape "role") v = (v.toText c.role).map (fun x => { c with role := x }) ∧
      c.setField (unescape "iss") v = (v.toText c.issuer).map (fun x => { c with issuer := x }) ∧
      c.setField (unescape "sub") v = (v.toText c.subject).map (fun x => { c with subject := x }) ∧
      c.setField (unescape "jti") v = (v.toText c.id).map (fun x => { c with id := x }) ∧
      c.setField (unescape "exp") v = (toDate v).map (fun x => { c with expiresAt := x }) ∧
      c.setField (unescape "nbf") v = (toDate v).map (fun x => { c with notBefore := x }) ∧
      c.setField (unescape "iat") v = (toDate v).map (fun x => { c with issuedAt := x }) :=
  ⟨rfl, rfl, rfl, rfl, rfl, rfl, rfl⟩

/-- A text that is left out when it is empty. -/
theorem overFields_textField {c : Claims} {key : String} {old : String} {set : String → Claims}
    (hset : ∀ v, c.setField (unescape key) v = (v.toText old).map set) (hempty : set "" = c) (value : String) :
    overFields setField c (.object (textField key value)) = .ok (set value) := by
  unfold textField
  split_ifs with h
  · rw [h, hempty]
    rfl
  · exact overFields_single ((hset _).trans (map_of_eq (toText_ofText old value) set))

/-- A date that is left out when there is none. -/
theorem overFields_dateField {c : Claims} {key : String} {set : Option ℤ → Claims}
    (hset : ∀ v, c.setField (unescape key) v = (toDate v).map set) (hnone : set none = c) {date : Option ℤ}
    (hdate : ∀ n, date = some n → n.natAbs ≤ 2 ^ 53) :
    overFields setField c (.object (dateField key date)) = .ok (set date) := by
  cases date with
  | none =>
    rw [hnone]
    rfl
  | some n => exact overFields_single ((hset _).trans (map_of_eq (toDate_ofInt (hdate n rfl)) set))

/-- Claims are read as they were written. -/
theorem overFields_toJson {c : Claims} (h : c.Datable) : overFields setField {} c.toJson = .ok c := by
  -- each field is read into a record that has nothing there yet, so leaving it out leaves it empty
  have hrole : overFields setField {} (.object [("role", .ofText c.role)]) = .ok { role := c.role } :=
    overFields_single ((setField_keys _ _).1.trans (map_of_eq (toText_ofText _ c.role) _))
  have hissuer := overFields_textField (fun v => (setField_keys { role := c.role } v).2.1) rfl c.issuer
  have hsubject := overFields_textField
    (fun v => (setField_keys { role := c.role, issuer := c.issuer } v).2.2.1) rfl c.subject
  have hexpiresAt := overFields_dateField
    (fun v => (setField_keys { role := c.role, issuer := c.issuer, subject := c.subject } v).2.2.2.2.1) rfl h.expiresAt
  have hnotBefore := overFields_dateField
    (fun v => (setField_keys { role := c.role, issuer := c.issuer, subject := c.subject, expiresAt := c.expiresAt }
      v).2.2.2.2.2.1) rfl h.notBefore
  have hissuedAt := overFields_dateField
    (fun v => (setField_keys { c with issuedAt := none, id := "" } v).2.2.2.2.2.2) rfl h.issuedAt
  have hid := overFields_textField (fun v => (setField_keys { c with id := "" } v).2.2.2.1) rfl c.id
  exact overFields_append (overFields_append (overFields_append (overFields_append (overFields_append
    (overFields_append hrole hissuer) hsubject) hexpiresAt) hnotBefore) hissuedAt) hid

theorem fits_toJson (c : Claims) : Fits c.toJson nestingLimit := by
  have htext (key value : String) (hkey : escape .web key = key) : FitFields (textField key value) 9999 := by
    unfold textField
    split_ifs
    · exact fitFields_nil _
    · exact fitFields_cons hkey (fits_ofText _ _) (fitFields_nil _)
  have hdate (key : String) (date : Option ℤ) (hkey : escape .web key = key) : FitFields (dateField key date) 9999 := by
    cases date with
    | none => exact fitFields_nil _
    | some n => exact fitFields_cons hkey (fits_ofInt n _) (fitFields_nil _)
  refine fits_object ?_
  repeat' apply fitFields_append
  · exact fitFields_cons rfl (fits_ofText _ _) (fitFields_nil _)
  · exact htext _ _ rfl
  · exact htext _ _ rfl
  · exact hdate _ _ rfl
  · exact hdate _ _ rfl
  · exact hdate _ _ rfl
  · exact htext _ _ rfl

end Claims

theorem Token.fits_header : Fits header nestingLimit :=
  fits_object (fitFields_cons rfl (fits_ofText _ 9999) (fitFields_cons rfl (fits_ofText _ 9999) (fitFields_nil 9999)))

/-- The claims of a token are the ones it was made from. -/
theorem Token.verified?_render (secret : String) {c : Claims} (h : c.Datable) :
    verified? secret (render secret c) = some c := by
  have hundotted (j : Json) : '.' ∉ encodeJson j := Text.Base64.dot_not_mem_encode _ _
  rw [render, List.append_assoc, List.cons_append]
  exact verified?_of_signed (hundotted _) (hundotted _) (decodeJson?_encodeJson fits_header)
    (decodeJson?_encodeJson c.fits_toJson) (by decide) (Claims.overFields_toJson h)

/-- Claims of the issuer with a subject and no beginning are good until they expire. -/
theorem Token.check_render (secret : String) {c : Claims} (h : c.Datable) (hissuer : c.issuer = Claims.issuerName)
    (hsubject : c.subject ≠ "") (hbegun : c.notBefore = none) {deadline : ℤ} (hdeadline : c.expiresAt = some deadline)
    (now : Time.Instant) : check secret now (render secret c) =
      if now.totalNanos < deadline * 1000000000 then .ok c else .error .expired := by
  have hexpiry : c.unexpired now = decide (now.totalNanos < deadline * 1000000000) := by
    rw [Claims.unexpired, hdeadline]
    rfl
  have hnow : c.begun now = true := by
    rw [Claims.begun, hbegun]
    rfl
  rw [check, verified?_render secret h]
  simp only [hexpiry, hnow, hissuer]
  split_ifs <;> simp_all

namespace TokenService

/-- The last second of a token that is issued at an instant. -/
def deadline (s : TokenService) (issued : Time.Instant) : ℤ := (issued.totalNanos + s.lifetime.nanos) / 1000000000

/-- What a token says that is issued at an instant. -/
def claims (s : TokenService) (issued : Time.Instant) (id : Uuid) (subject role : String) : Claims where
  role := role
  issuer := "smartrash"
  subject := subject
  id := id.render
  expiresAt := some (s.deadline issued)
  issuedAt := some issued.seconds

theorem issue_eq_ok (s : TokenService) (issued : Time.Instant) {random : List UInt8} {id : Uuid}
    (hid : Uuid.ofRandom random = .ok id) (context : LogContext) {subject : String} (hsubject : subject ≠ "")
    (role : String) : s.issue issued random context subject role =
      .ok (Token.render s.secret (s.claims issued id subject role), issued.toUtc.add s.lifetime) := by
  rw [issue, if_neg hsubject, hid]
  rfl

/-- A token is issued for everyone who has a name. Whoever checks it with the same secret before its
deadline, the whole second at or before its expiry, learns what it was issued for; from the deadline
on they learn that it has expired. Dates are read as doubles, so both have to be numbers of seconds
that a double counts one by one. -/
theorem issued_valid_until_deadline (s : TokenService) (issued : Time.Instant) {random : List UInt8}
    (hrandom : 16 ≤ random.length) (context : LogContext) {subject : String} (hsubject : subject ≠ "") (role : String)
    (hissued : issued.seconds.natAbs ≤ 2 ^ 53) (hdeadline : (s.deadline issued).natAbs ≤ 2 ^ 53) :
    ∃ id token expires, Uuid.ofRandom random = .ok id ∧
      s.issue issued random context subject role = .ok (token, expires) ∧
      expires.totalNanos = issued.totalNanos + s.lifetime.nanos ∧
      ∀ (checker : TokenService), checker.secret = s.secret → ∀ (now : Time.Instant) (context : LogContext),
        let expired := Fault.tagged (context.withAction "validate_token") (.known .expiredToken)
        checker.validate now context token =
            (if now.totalNanos < s.deadline issued * 1000000000 then .ok (s.claims issued id subject role)
              else .error expired) ∧
          checker.operator now context token =
            if now.totalNanos < s.deadline issued * 1000000000 then .ok ⟨subject, role⟩ else .error expired := by
  obtain ⟨id, hid⟩ : ∃ id, Uuid.ofRandom random = .ok id := ⟨_, dif_pos hrandom⟩
  refine ⟨id, _, _, hid, s.issue_eq_ok issued hid context hsubject role, ?_, ?_⟩
  · rw [Time.Instant.totalNanos_add]
    rfl
  · intro checker hsecret now context expired
    have hdatable : (s.claims issued id subject role).Datable := by
      refine ⟨?_, ?_, ?_⟩
      · rintro n ⟨⟩
        exact hdeadline
      · rintro n ⟨⟩
      · rintro n ⟨⟩
        exact hissued
    have hcheck := Token.check_render s.secret hdatable rfl hsubject rfl rfl now
    have hvalidate : checker.validate now context (Token.render s.secret (s.claims issued id subject role)) =
        if now.totalNanos < s.deadline issued * 1000000000 then .ok (s.claims issued id subject role)
        else .error expired := by
      rw [validate, hsecret, hcheck]
      split_ifs <;> rfl
    refine ⟨hvalidate, ?_⟩
    rw [operator, hvalidate]
    split_ifs <;> rfl

/-- A token for a second and a half, issued late in a second: it expires in the course of the second
after the next, and its deadline is where this second starts. -/
theorem short_pass_until_deadline :
    let s : TokenService := ⟨"key", ⟨1500000000⟩⟩
    let issued : Time.Instant := ⟨1640995200, 700000000, 3600⟩
    ∃ token expires, s.issue issued (List.replicate 16 7) {} "Zoë <crew>" "OPERATOR" = .ok (token, expires) ∧
      expires.totalNanos = 1640995202200000000 ∧
      s.operator ⟨1640995201, 999999999, 0⟩ {} token = .ok ⟨"Zoë <crew>", "OPERATOR"⟩ ∧
      s.operator ⟨1640995202, 0, 0⟩ {} token =
        .error (.tagged (LogContext.withAction {} "validate_token") (.known .expiredToken)) := by
  intro s issued
  obtain ⟨id, token, expires, -, hissue, hexpires, hchecks⟩ := s.issued_valid_until_deadline issued
    (show 16 ≤ (List.replicate 16 (7 : UInt8)).length by decide) {} (show "Zoë <crew>" ≠ "" by decide) "OPERATOR"
    (by decide) (by decide)
  refine ⟨token, expires, hissue, hexpires.trans (by decide), ?_, ?_⟩
  · rw [(hchecks s rfl _ _).2, if_pos (by decide)]
  · rw [(hchecks s rfl _ _).2, if_neg (by decide)]

end TokenService

end BinFleet.Access
