import BinFleet.Access.Bearer
import BinFleet.Access.Token
import BinFleet.Proofs.Json.Reader
import BinFleet.Proofs.Text

namespace BinFleet.Access

/-- A text of three parts between dots that the service has signed. -/
structure SignedToken (secret : String) (token : List Char) (claims : Claims) where
  head : List Char
  body : List Char
  sign : List Char
  parts : token = head ++ '.' :: (body ++ '.' :: sign)
  undotted : '.' ∉ head ∧ '.' ∉ body ∧ '.' ∉ sign
  /-- What the first two parts hold. -/
  header : Json
  content : Json
  readHead : Token.decodeJson? head = some header
  readBody : Token.decodeJson? body = some content
  algorithm : Token.algorithm? header = some "HS256"
  claimed : content.overFields Claims.setField {} = .ok claims
  signed : Text.Base64.decode? .url sign =
    some (Digest.Hmac.sum (Text.Utf8.ofString secret) (Text.Utf8.encode (head ++ '.' :: body)))

/-- A signed token that names an operator at an instant. -/
structure OperatorToken (secret : String) (now : Time.Instant) (token : List Char) where
  claims : Claims
  text : SignedToken secret token claims
  issuer : claims.issuer = "smartrash"
  subject : claims.subject ≠ ""
  /-- An expiry lies after the present. -/
  expiry : ∀ e, claims.expiresAt = some e → now.totalNanos < e * 1000000000
  role : claims.role = "OPERATOR"

theorem Token.verified?_eq_some {secret token : String} {claims : Claims}
    (h : Token.verified? secret token = some claims) : Nonempty (SignedToken secret token.toList claims) := by
  have hjoin := Text.intercalate_splitList '.' token.toList
  have hdots : ∀ piece ∈ Text.splitList '.' token.toList, '.' ∉ piece := fun _ => Text.not_mem_of_mem_splitList
  unfold Token.verified? at h
  split at h
  · rename_i head body sign hsplit
    rw [hsplit] at hjoin hdots
    simp only [Option.bind_eq_bind, Option.bind_eq_some_iff] at h
    obtain ⟨header, hheader, alg, halg, content, hcontent, read, hread, given, hgiven, h⟩ := h
    split_ifs at h with hok
    obtain ⟨rfl, rfl⟩ := hok
    obtain rfl := Option.some.inj h
    cases hset : content.overFields Claims.setField {} with
    | error e => simp [hset, Except.toOption] at hread
    | ok c =>
      obtain rfl : c = read := by simpa [hset, Except.toOption] using hread
      exact ⟨{
        head, body, sign, header, content
        parts := by simpa [List.intercalate] using hjoin.symm
        undotted := ⟨hdots _ (by simp), hdots _ (by simp), hdots _ (by simp)⟩
        readHead := hheader
        readBody := hcontent
        algorithm := halg
        claimed := hset
        signed := hgiven }⟩
  · simp at h

/-- Everything that is looked at before a caller counts as an operator. -/
theorem TokenService.operator_eq_ok {tokens : TokenService} {now : Time.Instant} {context : LogContext}
    {token : String} {o : Operator} (h : tokens.operator now context token = .ok o) (hrole : o.role = "OPERATOR") :
    Nonempty (OperatorToken tokens.secret now token.toList) := by
  unfold TokenService.operator TokenService.validate at h
  cases hcheck : Token.check tokens.secret now token with
  | error e => simp [hcheck, Except.mapError, Except.map] at h
  | ok claims =>
    simp only [hcheck, Except.mapError, Except.map, Except.ok.injEq] at h
    subst h
    unfold Token.check at hcheck
    cases hverified : Token.verified? tokens.secret token with
    | none => simp [hverified] at hcheck
    | some c =>
      simp only [hverified] at hcheck
      split_ifs at hcheck with hexpired hbegun hsubject
      obtain rfl : c = claims := by simpa using hcheck
      obtain ⟨text⟩ := Token.verified?_eq_some hverified
      refine ⟨{ claims := c, text, subject := hsubject, role := hrole, issuer := ?_, expiry := ?_ }⟩
      · have := hbegun
        simp only [Bool.or_eq_true, not_or, bne_iff_ne, ne_eq, not_not] at this
        exact this.2
      · intro e he
        simpa [Claims.unexpired, he] using hexpired

/-- The parts of a token hold the documents they were made from. -/
theorem Token.decodeJson?_encodeJson {j : Json} (h : Json.Fits j Json.nestingLimit) :
    decodeJson? (encodeJson j) = some j := by
  simp [decodeJson?, encodeJson, segment, Text.Base64.decode?_encode, Text.Utf8.decode_encode,
    Json.Reader.read?_render h]

/-- A text whose parts can be read and whose signature is that of the service. -/
theorem Token.verified?_of_signed {secret : String} {head body : List Char} {header content : Json} {claims : Claims}
    (hhead : '.' ∉ head) (hbody : '.' ∉ body) (hheader : decodeJson? head = some header)
    (hcontent : decodeJson? body = some content) (halg : algorithm? header = some algorithm)
    (hclaims : content.overFields Claims.setField {} = .ok claims) :
    verified? secret (String.ofList (head ++ '.' :: (body ++
      '.' :: segment (signature secret (head ++ '.' :: body))))) = some claims := by
  have hsign : '.' ∉ segment (signature secret (head ++ '.' :: body)) := Text.Base64.dot_not_mem_encode _ _
  have hsplit : Text.splitList '.' (head ++ '.' :: (body ++
      '.' :: segment (signature secret (head ++ '.' :: body)))) =
      [head, body, segment (signature secret (head ++ '.' :: body))] := by
    rw [Text.splitList_append hhead, Text.splitList_append hbody, Text.splitList_of_not_mem hsign]
  rw [verified?, String.toList_ofList, hsplit]
  simp [hheader, hcontent, halg, hclaims, Except.toOption, segment, Text.Base64.decode?_encode]

theorem TokenService.operator_of_claims {tokens : TokenService} {now : Time.Instant} {token : String} {claims : Claims}
    (h : Token.verified? tokens.secret token = some claims) (hexpiry : claims.unexpired now = true)
    (hbegun : claims.begun now = true) (hissuer : claims.issuer = Claims.issuerName) (hsubject : claims.subject ≠ "")
    (context : LogContext) : tokens.operator now context token = .ok ⟨claims.subject, claims.role⟩ := by
  simp [TokenService.operator, TokenService.validate, Token.check, h, hexpiry, hbegun, hissuer, hsubject,
    Except.mapError, Except.map]

theorem Bearer.token?_eq_some {header token : String} (h : Bearer.token? header = some token) :
    ∃ scheme : List Char, header.toList = scheme ++ ' ' :: token.toList ∧ ' ' ∉ scheme ∧
      scheme.map Char.toLower = "bearer".toList := by
  unfold Bearer.token? at h
  split at h
  · simp at h
  · rename_i scheme rest hcut
    split_ifs at h with hscheme
    obtain rfl := Option.some.inj h
    obtain ⟨hheader, hblank⟩ := Text.cut?_eq_some hcut
    exact ⟨scheme, by simpa using hheader, hblank, hscheme.1⟩

theorem Bearer.token?_of_scheme {scheme token : List Char} (hblank : ' ' ∉ scheme)
    (hscheme : scheme.map Char.toLower = "bearer".toList) (htoken : token ≠ []) :
    Bearer.token? (String.ofList (scheme ++ ' ' :: token)) = some (String.ofList token) := by
  rw [Bearer.token?, String.toList_ofList, Text.cut?_append hblank]
  exact if_pos ⟨hscheme, htoken⟩

end BinFleet.Access
